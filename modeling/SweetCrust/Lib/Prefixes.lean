import Mathlib.Data.List.Infix
import Mathlib.Data.List.Nodup

/-!
# Tables of prefixes

A table gives a value to some prefixes.  A path is looked up by the first entry whose prefix it
has, or by the longest one.

* `first`, `IsLongest` — the two ways to look a path up.
* `Specific`, `first_eq_some_iff` — where no entry has a prefix of a later one, they agree on every
  path.
-/

namespace Prefixes

variable {α β : Type*} {routes : List (List α × β)} {path : List α} {r s : List α × β}

/-- The first entry that covers the path. -/
def first [DecidableEq α] (routes : List (List α × β)) (path : List α) : Option (List α × β) :=
  routes.find? fun r => r.1 <+: path

/-- No entry that covers the path has a longer prefix. -/
def IsLongest (routes : List (List α × β)) (path : List α) (r : List α × β) : Prop :=
  r ∈ routes ∧ r.1 <+: path ∧ ∀ s ∈ routes, s.1 <+: path → s.1.length ≤ r.1.length

/-- No entry has a prefix of a later one. -/
def Specific (routes : List (List α × β)) : Prop := routes.Pairwise fun r s => ¬ r.1 <+: s.1

instance [DecidableEq α] : Decidable (Specific routes) :=
  inferInstanceAs (Decidable (List.Pairwise _ _))

theorem Specific.nodup (h : Specific routes) : (routes.map Prod.fst).Nodup := by
  refine List.Pairwise.map _ (fun r s hrs heq => hrs ?_) h
  rw [heq]

/-- Two prefixes of one path are the same where they are equally long. -/
theorem IsLongest.fst_eq (hr : IsLongest routes path r) (hs : IsLongest routes path s) :
    r.1 = s.1 := by
  have hle := hs.2.2 r hr.1 hr.2.1
  have hge := hr.2.2 s hs.1 hs.2.1
  exact (List.prefix_of_prefix_length_le hr.2.1 hs.2.1 hle).eq_of_length_le hge

theorem IsLongest.unique (hnodup : (routes.map Prod.fst).Nodup) (hr : IsLongest routes path r)
    (hs : IsLongest routes path s) : r = s :=
  List.inj_on_of_nodup_map hnodup hr.1 hs.1 (hr.fst_eq hs)

variable [DecidableEq α]

theorem Specific.isLongest (h : Specific routes) (hr : first routes path = some r) :
    IsLongest routes path r := by
  obtain ⟨hcovers, before, after, rfl, hbefore⟩ := List.find?_eq_some_iff_append.1 hr
  have hcovers : r.1 <+: path := by simpa using hcovers
  refine ⟨by simp, hcovers, fun s hs hpath => ?_⟩
  obtain hs | hs := List.mem_append.1 hs
  · have hno := hbefore s hs
    simp [hpath] at hno
  · obtain rfl | hs := List.mem_cons.1 hs
    · exact le_rfl
    · -- the prefixes of `r` and of a later entry are comparable, and the later is not the longer
      have hrs : ¬ r.1 <+: s.1 := List.rel_of_pairwise_cons (List.pairwise_append.1 h).2.1 hs
      obtain hle | hle := List.prefix_or_prefix_of_prefix hcovers hpath
      · exact absurd hle hrs
      · exact hle.length_le

/-- An entry that covers the path is found. -/
theorem exists_first (hr : r ∈ routes) (hpath : r.1 <+: path) :
    ∃ s, first routes path = some s := by
  rw [← Option.isSome_iff_exists, first, List.find?_isSome]
  exact ⟨r, hr, by simpa using hpath⟩

theorem first_eq_some_iff (h : Specific routes) :
    first routes path = some r ↔ IsLongest routes path r := by
  constructor
  · exact h.isLongest
  · intro hr
    obtain ⟨s, hs⟩ := exists_first hr.1 hr.2.1
    rw [hs, (h.isLongest hs).unique h.nodup hr]

end Prefixes
