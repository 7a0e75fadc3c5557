import SweetCrust.Lib.Text
import SweetCrust.Lib.Touch

/-!
# Presence on the realtime server

`server.ts` checks the token of a socket after the socket has connected, and publishes a
presence message when the check is done, on every `presence_ping`, and when the socket
disconnects.  The server looks at one socket at a time: the message at a disconnect says
offline whatever other sockets the user has, and a check that is done after its socket has
gone says online.

* `step` — one event on the server.
* `Follows` — the last message for a user says whether a socket of the user is connected.
* `follows_iff` — it does after a run exactly when the last event that published for the user
  was neither of the two.
-/

namespace SweetCrust

open Text Runs

namespace Realtime

/-- `AuthUser`. -/
structure AuthUser where
  id : ℤ
  role : String
  deriving DecidableEq, Inhabited

/-- A socket: its token is being checked, or it has the user that the check found. -/
inductive Socket
  | checking (connected : Bool)
  | checked (user : Option AuthUser) (connected : Bool)
  deriving DecidableEq, Inhabited

/-- A message on the presence channel, less its time. -/
structure Message where
  userId : ℤ
  online : Bool
  role : Option String
  deriving DecidableEq, Inhabited

/-- The sockets that have connected so far, and the messages published so far. -/
structure Server (ι : Type) where
  sockets : ι → Option Socket
  published : List Message

section Handlers

variable {ι : Type} [DecidableEq ι]

/-- A server that no socket has connected to. -/
def Server.start : Server ι := ⟨fun _ => none, []⟩

def Server.set (s : Server ι) (i : ι) (socket : Socket) : Server ι :=
  { s with sockets := Function.update s.sockets i (some socket) }

/-- `publishPresence`. -/
def publishPresence (user : AuthUser) (online : Bool) (s : Server ι) : Server ι :=
  { s with published := s.published ++ [⟨user.id, online, truthy (some user.role)⟩] }

/-- `publishPresence` for a socket with a user. -/
def publishFor (user : Option AuthUser) (online : Bool) (s : Server ι) : Server ι :=
  match user with
  | some u => publishPresence u online s
  | none => s

inductive Event (ι : Type)
  | connection (i : ι)
  /-- `userFromToken` is done for the socket. -/
  | authenticated (i : ι) (user : Option AuthUser)
  | presencePing (i : ι)
  | disconnect (i : ι)

/-- The server after an event.  An event that a socket in its state cannot have is none. -/
def step (s : Server ι) : Event ι → Server ι
  | .connection i =>
    match s.sockets i with
    | none => s.set i (.checking true)
    | some _ => s
  | .authenticated i user =>
    match s.sockets i with
    | some (.checking connected) => publishFor user true (s.set i (.checked user connected))
    | _ => s
  | .presencePing i =>
    match s.sockets i with
    | some (.checked user true) => publishFor user true s
    | _ => s
  | .disconnect i =>
    match s.sockets i with
    | some (.checking true) => s.set i (.checking false)
    | some (.checked user true) => publishFor user false (s.set i (.checked user false))
    | _ => s

/-! ## The property -/

/-- The socket is connected, and was authenticated for the user. -/
def SocketOf (u : ℤ) (s : Server ι) (i : ι) : Prop :=
  ∃ user, s.sockets i = some (.checked (some user) true) ∧ user.id = u

/-- What the last presence message of the user says. -/
def lastOnline (u : ℤ) (s : Server ι) : Bool :=
  ((s.published.filter fun m => m.userId = u).getLast?).elim false Message.online

/-- The last message of the user says online exactly if a socket of the user is connected. -/
def Matches (u : ℤ) (s : Server ι) : Prop := lastOnline u s = true ↔ ∃ i, SocketOf u s i

/-- No token is being checked. -/
def Settled (s : Server ι) : Prop := ∀ i connected, s.sockets i ≠ some (.checking connected)

/-- Whenever no token is being checked, the last message is right. -/
def Follows (u : ℤ) (s : Server ι) : Prop := Settled s → Matches u s

/-- The event publishes for the user. -/
def Publishes (u : ℤ) (s : Server ι) : Event ι → Prop
  | .connection _ => False
  | .authenticated i user =>
    (∃ connected, s.sockets i = some (.checking connected)) ∧ ∃ a ∈ user, a.id = u
  | .presencePing i => SocketOf u s i
  | .disconnect i => SocketOf u s i

/-- The event is not a check that is done for a socket that has gone, with no other socket of
the user connected, nor a disconnect that leaves another one connected. -/
def Right (u : ℤ) (s : Server ι) : Event ι → Prop
  | .connection _ => True
  | .authenticated i _ => s.sockets i = some (.checking true) ∨ ∃ j, SocketOf u s j
  | .presencePing _ => True
  | .disconnect i => ∀ j, SocketOf u s j → j = i

end Handlers

/-! ## Publishing -/

section Publishing

variable {ι : Type} {s t : Server ι} {u : ℤ} {j : ι}

@[simp] theorem socketOf_publishFor {user : Option AuthUser} {online : Bool} :
    SocketOf u (publishFor user online s) j ↔ SocketOf u s j := by
  cases user <;> rfl

theorem lastOnline_publish {user : Option AuthUser} {online : Bool} (h : ∃ a ∈ user, a.id = u) :
    lastOnline u (publishFor user online s) = online := by
  obtain ⟨a, rfl, ha⟩ := h
  simp [lastOnline, publishFor, publishPresence, ha]

theorem lastOnline_publish_of_not {user : Option AuthUser} {online : Bool}
    (h : ¬ ∃ a ∈ user, a.id = u) : lastOnline u (publishFor user online s) = lastOnline u s := by
  cases user with
  | none => rfl
  | some a =>
    have ha : a.id ≠ u := fun heq => h ⟨a, rfl, heq⟩
    simp [lastOnline, publishFor, publishPresence, ha]

/-- States with the same sockets of the user and the same last message match alike. -/
theorem matches_congr (hlast : lastOnline u t = lastOnline u s)
    (hsockets : ∀ j, SocketOf u t j ↔ SocketOf u s j) : Matches u t ↔ Matches u s := by
  unfold Matches
  rw [hlast, exists_congr hsockets]

end Publishing

/-! ## One event -/

section Events

variable {ι : Type} [DecidableEq ι] {s : Server ι} {u : ℤ} {i j : ι}

theorem socketOf_set_self {socket : Socket} : SocketOf u (s.set i socket) i ↔
    ∃ user, socket = .checked (some user) true ∧ user.id = u := by
  simp [SocketOf, Server.set]

theorem socketOf_set_of_ne {socket : Socket} (hne : j ≠ i) :
    SocketOf u (s.set i socket) j ↔ SocketOf u s j := by
  simp [SocketOf, Server.set, hne]

/-- Setting a socket of nobody to another one of nobody. -/
theorem socketOf_set_iff {socket : Socket} (hbefore : ¬ SocketOf u s i)
    (hafter : ¬ ∃ user, socket = .checked (some user) true ∧ user.id = u) (j : ι) :
    SocketOf u (s.set i socket) j ↔ SocketOf u s j := by
  by_cases hj : j = i
  · subst hj
    rw [socketOf_set_self]
    exact iff_of_false hafter hbefore
  · exact socketOf_set_of_ne hj

@[simp] theorem lastOnline_set {socket : Socket} :
    lastOnline u (s.set i socket) = lastOnline u s := rfl

/-- An event that does not publish for the user changes nothing for the user. -/
theorem matches_of_not_publishes (e : Event ι) (h : ¬ Publishes u s e) :
    Matches u (step s e) ↔ Matches u s := by
  cases e with
  | connection i =>
    simp only [step]
    cases hi : s.sockets i with
    | some socket => rfl
    | none =>
      refine matches_congr lastOnline_set fun j => socketOf_set_iff ?_ (by simp) j
      simp [SocketOf, hi]
  | authenticated i user =>
    simp only [step]
    split
    · rename_i connected hi
      have huser : ¬ ∃ a ∈ user, a.id = u := fun ha => h ⟨⟨connected, hi⟩, ha⟩
      refine matches_congr (lastOnline_publish_of_not huser) fun j => ?_
      rw [socketOf_publishFor]
      refine socketOf_set_iff (by simp [SocketOf, hi]) ?_ j
      rintro ⟨a, hsocket, ha⟩
      cases hsocket
      exact huser ⟨a, rfl, ha⟩
    · rfl
  | presencePing i =>
    simp only [step]
    split
    · rename_i user hi
      refine matches_congr (lastOnline_publish_of_not ?_) fun j => socketOf_publishFor
      rintro ⟨a, rfl, ha⟩
      exact h ⟨a, hi, ha⟩
    · rfl
  | disconnect i =>
    simp only [step]
    split
    · rename_i hi
      refine matches_congr lastOnline_set fun j => socketOf_set_iff ?_ (by simp) j
      simp [SocketOf, hi]
    · rename_i user hi
      have huser : ¬ ∃ a ∈ user, a.id = u := by
        rintro ⟨a, rfl, ha⟩
        exact h ⟨a, hi, ha⟩
      refine matches_congr (lastOnline_publish_of_not huser) fun j => ?_
      rw [socketOf_publishFor]
      exact socketOf_set_iff h (by simp) j
    · rfl

/-- An event that publishes for the user leaves the message right exactly when it is right. -/
theorem matches_iff_right (e : Event ι) (h : Publishes u s e) :
    Matches u (step s e) ↔ Right u s e := by
  cases e with
  | connection i => exact h.elim
  | authenticated i user =>
    obtain ⟨⟨connected, hi⟩, huser⟩ := h
    have hstep : step s (.authenticated i user) =
        publishFor user true (s.set i (.checked user connected)) := by
      simp only [step, hi]
    rw [hstep, Matches, lastOnline_publish huser]
    simp only [socketOf_publishFor, true_iff, Right, hi]
    obtain ⟨a, rfl, ha⟩ := huser
    constructor
    · rintro ⟨j, hj⟩
      by_cases hji : j = i
      · subst hji
        obtain ⟨b, hb, -⟩ := socketOf_set_self.1 hj
        cases hb
        exact Or.inl rfl
      · exact Or.inr ⟨j, (socketOf_set_of_ne hji).1 hj⟩
    · rintro (hconnected | ⟨j, hj⟩)
      · cases hconnected
        exact ⟨i, socketOf_set_self.2 ⟨a, rfl, ha⟩⟩
      · have hji : j ≠ i := by
          rintro rfl
          obtain ⟨b, hb, -⟩ := hj
          rw [hi] at hb
          cases hb
        exact ⟨j, (socketOf_set_of_ne hji).2 hj⟩
  | presencePing i =>
    obtain ⟨a, hi, ha⟩ := h
    have hstep : step s (.presencePing i) = publishFor (some a) true s := by
      simp only [step, hi]
    rw [hstep, Matches, lastOnline_publish ⟨a, rfl, ha⟩]
    simp only [socketOf_publishFor, true_iff, Right, iff_true]
    exact ⟨i, a, hi, ha⟩
  | disconnect i =>
    obtain ⟨a, hi, ha⟩ := h
    have hstep : step s (.disconnect i) =
        publishFor (some a) false (s.set i (.checked (some a) false)) := by
      simp only [step, hi]
    rw [hstep, Matches, lastOnline_publish ⟨a, rfl, ha⟩]
    simp only [socketOf_publishFor, Bool.false_eq_true, false_iff, not_exists, Right]
    refine forall_congr' fun j => ?_
    by_cases hj : j = i
    · subst hj
      exact iff_of_true (by simp [socketOf_set_self]) fun _ => rfl
    · rw [socketOf_set_of_ne hj]
      simp [hj]

end Events

/-! ## Runs -/

section Runs

variable {ι : Type} [DecidableEq ι]

/-- Along a run the last presence message of a user is right, whenever no token is being
checked, exactly when by then the last event that published for the user was right. -/
theorem follows_iff (u : ℤ) (es : List (Event ι)) :
    Throughout step (Follows u) Server.start es ↔
      ∀ pre, pre <+: es → Settled (run step Server.start pre) →
        LastTouch step (Publishes u) (Right u) Server.start pre := by
  have hstart : Matches u (Server.start : Server ι) := by
    simp [Matches, SocketOf, Server.start, lastOnline]
  refine forall_congr' fun pre => imp_congr_right fun _ => imp_congr_right fun _ => ?_
  exact run_iff_lastTouch (fun _ e => matches_of_not_publishes e)
    (fun _ e => matches_iff_right e) hstart pre

/-- One of two sockets of a user disconnects, and a socket disconnects before its token has
been checked. -/
theorem other_socket_connected :
    ¬ Throughout step (Follows 7) (Server.start : Server ℕ)
        [.connection 0, .authenticated 0 (some ⟨7, "customer"⟩), .connection 1,
          .authenticated 1 (some ⟨7, "customer"⟩), .disconnect 1] ∧
      ¬ Throughout step (Follows 7) (Server.start : Server ℕ)
        [.connection 0, .disconnect 0, .authenticated 0 (some ⟨7, "customer"⟩)] := by
  constructor
  · intro h
    have hlast : Matches 7 _ := h.final fun i connected => by
      by_cases h0 : i = 0 <;> by_cases h1 : i = 1 <;>
        simp [run, step, Server.start, Server.set, publishFor, publishPresence, h0, h1]
    have honline := hlast.2 ⟨0, ⟨7, "customer"⟩, rfl, rfl⟩
    revert honline
    decide
  · intro h
    have hlast : Matches 7 _ := h.final fun i connected => by
      by_cases h0 : i = 0 <;>
        simp [run, step, Server.start, Server.set, publishFor, publishPresence, h0]
    obtain ⟨i, hi⟩ := hlast.1 (by decide)
    revert hi
    by_cases h0 : i = 0 <;>
      simp [SocketOf, run, step, Server.start, Server.set, publishFor, publishPresence, h0]

end Runs

end Realtime

end SweetCrust
