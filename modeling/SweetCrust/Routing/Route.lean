import SweetCrust.Lib.Greedy
import SweetCrust.Lib.Rounding
import SweetCrust.Lib.Table
import SweetCrust.Data.Enums

/-!
# The route of a rider

The open orders are the stops of a route.  It starts at the bakery and always goes on to the
nearest stop that is left.

* `openStops` — the open orders, with the coordinates that are known of them.
* `drive`, `optimizeFrom`, `optimize` — the loop, the route through given stops, and the one
  through the open orders.
* `drive_eq` — the loop runs the greedy tour of its stops.
* `GreedyRoute`, `optimizeFrom_greedyRoute` — the route loses no stop, and each leg is a
  shortest one.
-/

namespace SweetCrust

open Tabular Greedy Rounding

namespace Routing

/-- A point on the map, in degrees. -/
structure Point where
  lat : ℚ
  lng : ℚ
  deriving DecidableEq, Inhabited

/-- The coordinates among the keys of an address snapshot. -/
structure Snapshot where
  latitude : Option ℚ
  longitude : Option ℚ
  lat : Option ℚ
  lng : Option ℚ

structure Order where
  status : OrderStatus
  addressSnapshot : Option Snapshot
  deliveryPersonId : Option ℕ

structure DeliveryTracking where
  orderId : ℕ
  customerLat : Option ℚ
  customerLng : Option ℚ

structure Db where
  orders : Table Order
  trackings : Table DeliveryTracking
  /-- Where the bakery settings place the bakery. -/
  settings : Option Point

/-- `bakery_coords`. -/
def bakeryCoords (db : Db) : Point := db.settings.getD ⟨191197 / 10000, 728468 / 10000⟩

/-- `a or b`: a zero counts as missing, like `None`. -/
def orElse (a b : Option ℚ) : Option ℚ := if a.getD 0 = 0 then b else a

/-- `_order_coords`. -/
def orderCoords (id : ℕ) (o : Order) (db : Db) : Option ℚ × Option ℚ :=
  let snap := o.addressSnapshot.getD ⟨none, none, none, none⟩
  let stored :=
    match orElse snap.latitude snap.lat, orElse snap.longitude snap.lng with
    | some lat, some lng => (some lat, some lng)
    | _, _ => (none, none)
  match db.trackings.first? fun t => t.orderId = id with
  | some (_, ⟨_, some lat, some lng⟩) => (some lat, some lng)
  | _ => stored

structure Stop where
  orderId : ℕ
  status : OrderStatus
  lat : Option ℚ
  lng : Option ℚ
  distanceKm : Option ℚ
  deliveryPersonId : Option ℕ
  deriving DecidableEq

/-- The statuses of the orders that are on the road or about to be. -/
def openStatuses : List OrderStatus := [.packed, .deliveryAssigned, .outForDelivery]

section Model

-- `haversine_km`, which rounds to two places
variable (d : Point → Point → ℚ)

/-- `open_stops`. -/
def openStops (db : Db) : List Stop :=
  ((db.orders.select fun o => o.status ∈ openStatuses).take 100).map fun r =>
    let coords := orderCoords r.1 r.2 db
    let dist :=
      match coords with
      | (some lat, some lng) => some (round2 (d (bakeryCoords db) ⟨lat, lng⟩))
      | _ => none
    ⟨r.1, r.2.status, coords.1, coords.2, dist, r.2.deliveryPersonId⟩

/-- A stop that has coordinates, with the point they give. -/
structure Located where
  stop : Stop
  point : Point
  coords : stop.lat = some point.lat ∧ stop.lng = some point.lng

def Stop.located? (s : Stop) : Option Located :=
  match hlat : s.lat, hlng : s.lng with
  | some lat, some lng => some ⟨s, ⟨lat, lng⟩, hlat, hlng⟩
  | _, _ => none

/-- The stops whose orders are listed.  An empty list is no list: it asks for every stop. -/
def wanted (orderIds : Option (List ℕ)) (stops : List Stop) : List Stop :=
  match orderIds with
  | none | some [] => stops
  | some ids => stops.filter fun s => s.orderId ∈ ids

/-- A stop of the route, with the way to it. -/
structure Leg where
  target : Located
  legKm : ℚ

structure Route where
  route : List Leg
  totalKm : ℚ
  stops : ℕ

/-- The way to a stop. -/
def cost (here : Point) (s : Located) : ℚ := d here s.point

/-- The `while` loop of `optimize`. -/
def drive (here : Point) (remaining : List Located) (route : List Leg) (total : ℚ) :
    List Leg × ℚ :=
  match _h : nearest (cost d) here remaining with
  | [] => (route, total)
  | nxt :: rest =>
    let km := d here nxt.point
    drive nxt.point rest (route ++ [⟨nxt, round2 km⟩]) (total + km)
termination_by remaining.length
decreasing_by exact length_lt_of_nearest _ _h

/-- `optimize`, from the bakery through the given stops. -/
def optimizeFrom (bakery : Point) (stops : List Stop) (orderIds : Option (List ℕ)) : Route :=
  match (wanted orderIds stops).filterMap Stop.located? with
  | [] => ⟨[], 0, 0⟩
  | stops =>
    let driven := drive d bakery stops [] 0
    ⟨driven.1, round2 driven.2, driven.1.length⟩

/-- `optimize`. -/
def optimize (orderIds : Option (List ℕ)) (db : Db) : Route :=
  optimizeFrom d (bakeryCoords db) (openStops d db) orderIds

/-! ## What a route has to be -/

/-- The stop has coordinates. -/
def Stop.HasCoords (s : Stop) : Prop := s.lat ≠ none ∧ s.lng ≠ none

instance (s : Stop) : Decidable s.HasCoords := inferInstanceAs (Decidable (_ ∧ _))

/-- Where the rider stands after some legs. -/
def standsAt (bakery : Point) (driven : List Leg) : Point :=
  reached (fun l : Leg => l.target.point) bakery driven

/-- A route from the bakery through some stops that always goes on to a nearest one. -/
structure GreedyRoute (bakery : Point) (stops : List Stop) (r : Route) : Prop where
  /-- The route visits the stops that have coordinates, each of them once. -/
  perm : (r.route.map fun l => l.target.stop).Perm (stops.filter fun s => s.HasCoords)
  /-- No stop that is left is nearer than the next one. -/
  nearest : ∀ driven leg later, r.route = driven ++ leg :: later → ∀ other ∈ later,
    d (standsAt bakery driven) leg.target.point ≤ d (standsAt bakery driven) other.target.point
  legKm : ∀ driven leg later, r.route = driven ++ leg :: later →
    leg.legKm = d (standsAt bakery driven) leg.target.point
  totalKm : r.totalKm = (r.route.map Leg.legKm).sum
  stops : r.stops = r.route.length

/-! ## The loop runs the tour -/

/-- The legs through located stops, in their order. -/
def legsFrom (here : Point) : List Located → List Leg
  | [] => []
  | s :: rest => ⟨s, round2 (cost d here s)⟩ :: legsFrom s.point rest

theorem map_target_legsFrom (here : Point) (l : List Located) :
    (legsFrom d here l).map Leg.target = l := by
  induction l generalizing here with
  | nil => rfl
  | cons s rest ih => exact congrArg (s :: ·) (ih s.point)

theorem map_legKm_legsFrom (here : Point) (l : List Located) :
    (legsFrom d here l).map Leg.legKm = (legs (cost d) Located.point here l).map round2 := by
  induction l generalizing here with
  | nil => rfl
  | cons s rest ih => exact congrArg (round2 (cost d here s) :: ·) (ih s.point)

theorem drive_eq (here : Point) (remaining : List Located) (route : List Leg) (total : ℚ) :
    drive d here remaining route total =
      (route ++ legsFrom d here (tour (cost d) Located.point here remaining),
        total + (legs (cost d) Located.point here
          (tour (cost d) Located.point here remaining)).sum) := by
  induction here, remaining, route, total using drive.induct d with
  | case1 here remaining route total h =>
    rw [drive, tour_eq_nil h]
    split
    · simp [legsFrom, legs]
    · next h' => exact absurd (h.symm.trans h') (by simp)
  | case2 here remaining route total nxt rest h km ih =>
    rw [tour_eq_cons h, legsFrom, legs, List.sum_cons, drive]
    split
    · next h' => exact absurd (h.symm.trans h') (by simp)
    · next nxt' rest' h' =>
      cases h.symm.trans h'
      rw [ih, List.append_assoc, add_assoc]
      rfl

variable {d}

theorem standsAt_legsFrom {here : Point} {l : List Located} {driven : List Leg} {leg : Leg}
    {later : List Leg} (h : legsFrom d here l = driven ++ leg :: later) :
    l = driven.map Leg.target ++ leg.target :: later.map Leg.target ∧
      leg.legKm = round2 (d (standsAt here driven) leg.target.point) := by
  have hl : l = driven.map Leg.target ++ leg.target :: later.map Leg.target := by
    rw [← map_target_legsFrom d here l, h, List.map_append, List.map_cons]
  refine ⟨hl, ?_⟩
  subst hl
  induction driven generalizing here with
  | nil => exact (congrArg Leg.legKm (List.cons.inj h).1).symm
  | cons first driven ih => exact ih (List.cons.inj h).2

theorem map_stop_located? (s : Stop) :
    s.located?.map Located.stop = Option.guard (fun s : Stop => s.HasCoords) s := by
  unfold Stop.located?
  split
  · next lat lng hlat hlng => simp [Stop.HasCoords, hlat, hlng, Option.guard]
  · next hmissing =>
    have hnot : ¬ s.HasCoords := by
      rintro ⟨hlat, hlng⟩
      obtain ⟨lat, hlat⟩ := Option.ne_none_iff_exists'.1 hlat
      obtain ⟨lng, hlng⟩ := Option.ne_none_iff_exists'.1 hlng
      exact hmissing lat lng hlat hlng
    simp [Option.guard, hnot]

/-- The located stops are those that have coordinates. -/
theorem map_stop_filterMap (stops : List Stop) :
    (stops.filterMap Stop.located?).map Located.stop = stops.filter fun s => s.HasCoords := by
  rw [List.map_filterMap, ← List.filterMap_eq_filter]
  exact congrArg (stops.filterMap ·) (funext map_stop_located?)

theorem standsAt_eq (here : Point) (driven : List Leg) :
    standsAt here driven = reached Located.point here (driven.map Leg.target) :=
  (List.foldl_map).symm

theorem isCents_legs (hd : ∀ a b, IsCents (d a b)) {here : Point} {l : List Located} {km : ℚ}
    (h : km ∈ legs (cost d) Located.point here l) : IsCents km := by
  induction l generalizing here with
  | nil => cases h
  | cons s rest ih =>
    rcases List.mem_cons.1 h with rfl | hrest
    · exact hd _ _
    · exact ih hrest

/-- The route runs the greedy tour of the wanted stops that have coordinates. -/
theorem optimizeFrom_eq (bakery : Point) (stops : List Stop) (orderIds : Option (List ℕ)) :
    optimizeFrom d bakery stops orderIds =
      let visited := tour (cost d) Located.point bakery
        ((wanted orderIds stops).filterMap Stop.located?)
      ⟨legsFrom d bakery visited, round2 (legs (cost d) Located.point bakery visited).sum,
        (legsFrom d bakery visited).length⟩ := by
  unfold optimizeFrom
  split
  · next hnone =>
    have htour : tour (cost d) Located.point bakery [] = [] := tour_eq_nil rfl
    simp only [hnone, htour, legsFrom, legs, List.sum_nil, round2_zero, List.length_nil]
  · simp only [drive_eq, List.nil_append, zero_add]

/-- The greedy tour of located stops is a greedy route of the stops that they are. -/
theorem greedyRoute_tour (hd : ∀ a b, IsCents (d a b)) (bakery : Point) {stops : List Stop}
    {located : List Located}
    (hstops : located.map Located.stop = stops.filter fun s => s.HasCoords) :
    let visited := tour (cost d) Located.point bakery located
    GreedyRoute d bakery stops ⟨legsFrom d bakery visited,
      round2 (legs (cost d) Located.point bakery visited).sum,
      (legsFrom d bakery visited).length⟩ := by
  refine ⟨?_, ?_, ?_, ?_, rfl⟩
  · have hmap : ((legsFrom d bakery (tour (cost d) Located.point bakery located)).map
        fun l => l.target.stop) =
        (tour (cost d) Located.point bakery located).map Located.stop := by
      conv_rhs => rw [← map_target_legsFrom d bakery (tour _ _ _ _), List.map_map]
      rfl
    rw [hmap, ← hstops]
    exact (perm_tour bakery located).map Located.stop
  · intro driven leg later h other hother
    have hnearest : NearestFirst (cost d) Located.point bakery
        (tour (cost d) Located.point bakery located) := nearestFirst_tour bakery located
    rw [(standsAt_legsFrom h).1] at hnearest
    rw [standsAt_eq]
    exact hnearest.le (List.mem_map_of_mem hother)
  · intro driven leg later h
    rw [(standsAt_legsFrom h).2, round2_of_isCents (hd _ _)]
  · show round2 _ = ((legsFrom d bakery _).map Leg.legKm).sum
    have hround : (legs (cost d) Located.point bakery (tour (cost d) Located.point bakery
        located)).map round2 = legs (cost d) Located.point bakery
        (tour (cost d) Located.point bakery located) :=
      (List.map_congr_left fun km hkm => round2_of_isCents (isCents_legs hd hkm)).trans
        (List.map_id _)
    rw [map_legKm_legsFrom, hround]
    exact round2_of_isCents (isCents_sum fun km hkm => isCents_legs hd hkm)

/-- The route through any list of stops, under any distance in whole hundredths, visits the
wanted stops that have coordinates, always the nearest next. -/
theorem optimizeFrom_greedyRoute (hd : ∀ a b, IsCents (d a b)) (bakery : Point)
    (stops : List Stop) (orderIds : Option (List ℕ)) :
    GreedyRoute d bakery (wanted orderIds stops) (optimizeFrom d bakery stops orderIds) := by
  rw [optimizeFrom_eq]
  exact greedyRoute_tour hd bakery (map_stop_filterMap (wanted orderIds stops))

/-- So does the route through the open orders, from where the settings place the bakery. -/
theorem optimize_greedyRoute (hd : ∀ a b, IsCents (d a b)) (orderIds : Option (List ℕ)) (db : Db) :
    GreedyRoute d (bakeryCoords db) (wanted orderIds (openStops d db)) (optimize d orderIds db) := by
  rw [optimize, optimizeFrom_eq]
  exact greedyRoute_tour hd _ (map_stop_filterMap (wanted orderIds (openStops d db)))

end Model

/-! ## A route along a meridian -/

/-- The distance of two points on one meridian. -/
def alongMeridian (a b : Point) : ℚ := round2 (1111949266 / 10000000 * |a.lat - b.lat|)

/-- An order that waits for a rider. -/
def packedAt (orderId : ℕ) (lat : ℚ) : Stop := ⟨orderId, .packed, some lat, some 72, none, none⟩

theorem alongMeridian_greedyRoute : GreedyRoute alongMeridian ⟨20, 72⟩
    (wanted (some [1, 2]) [packedAt 1 22, packedAt 2 21, packedAt 3 23])
    (optimizeFrom alongMeridian ⟨20, 72⟩ [packedAt 1 22, packedAt 2 21, packedAt 3 23]
      (some [1, 2])) :=
  optimizeFrom_greedyRoute (fun _ _ => isCents_round2 _) _ _ _

end Routing

end SweetCrust
