import SweetCrust.Lib.Rooms
import SweetCrust.Realtime.Presence

/-!
# Fan-out on the realtime server

A socket joins rooms: those of its user when its token has been checked, and those of the
orders and conversations that it asks for.  What the services publish is emitted to rooms, by
the text of their names, and the names are put together from texts that a client or a service
has sent.

* `Room`, `Room.name` — the rooms, and their names; no two rooms have one name.
* `hubStep` — one event on the server, with rooms.
* `deskStep` — what the fan-out is for: a socket has a seat, that is a user and what it has
  asked for, and `copies` says what it is due.
* `inbox_eq` — along every run a socket receives what it is due.
* `received_by_right` — nothing reaches a socket that its user has no right to.
-/

namespace SweetCrust

open Text Runs

namespace Realtime

/-! ## Rooms -/

inductive Room
  | user (id : String)
  | rider (id : String)
  | order (id : String)
  | chat (id : String)
  | admin
  | retailers
  | delivery
  deriving DecidableEq

/-- The name that the server emits to. -/
def Room.name : Room → String
  | .user id => "user:" ++ id
  | .rider id => "rider:" ++ id
  | .order id => "order:" ++ id
  | .chat id => "chat:" ++ id
  | .admin => "admin"
  | .retailers => "retailers"
  | .delivery => "delivery"

/-- The characters of the name. -/
def Room.chars : Room → List Char
  | .user id => 'u' :: 's' :: 'e' :: 'r' :: ':' :: id.toList
  | .rider id => 'r' :: 'i' :: 'd' :: 'e' :: 'r' :: ':' :: id.toList
  | .order id => 'o' :: 'r' :: 'd' :: 'e' :: 'r' :: ':' :: id.toList
  | .chat id => 'c' :: 'h' :: 'a' :: 't' :: ':' :: id.toList
  | .admin => ['a', 'd', 'm', 'i', 'n']
  | .retailers => ['r', 'e', 't', 'a', 'i', 'l', 'e', 'r', 's']
  | .delivery => ['d', 'e', 'l', 'i', 'v', 'e', 'r', 'y']

theorem Room.toList_name (r : Room) : r.name.toList = r.chars := by
  cases r with
  | user id => exact String.toList_append
  | rider id => exact String.toList_append
  | order id => exact String.toList_append
  | chat id => exact String.toList_append
  | admin => decide
  | retailers => decide
  | delivery => decide

/-- Two rooms with the same name are the same, whatever the texts in the names are. -/
theorem Room.name_injective : Function.Injective Room.name := by
  intro a b h
  have hchars : a.chars = b.chars := by rw [← toList_name, ← toList_name, h]
  cases a <;> cases b <;> simp_all [chars, String.toList_inj]

/-! ## The server with its rooms -/

/-- What the services publish.  An id is the text that it has in the name of a room, and none
if it is missing or null. -/
inductive Published (β : Type)
  | orderStatus (orderId riderUserId deliveryUserId : Option String) (body : β)
  | chatMessage (conversationId peerUserId : Option String) (senderRole : String) (body : β)
  | deliveryLocation (orderId : Option String) (body : β)
  | userPresence (body : β)
  | adminEvent (body : β)
  | userEvent (userId : Option String) (body : β)
  /-- What is not JSON. -/
  | malformed
  deriving DecidableEq

/-- What a socket receives. -/
inductive Packet (β : Type)
  | error (detail : String)
  | joined (room : String)
  | presencePong
  | typing (conversationId : String) (userId : ℤ) (isTyping : Bool)
  | published (m : Published β)
  /-- A presence message that is emitted without Redis. -/
  | presence (m : Message)
  /-- An order status that a client has sent. -/
  | status (orderId : String) (body : β)
  deriving DecidableEq

inductive HubEvent (ι β : Type)
  /-- An event of the presence model, and whether Redis takes the presence message. -/
  | presence (viaRedis : Bool) (e : Event ι)
  | joinOrder (i : ι) (orderId : Option String)
  | joinChat (i : ι) (conversationId : Option String)
  | typing (i : ι) (conversationId : Option String) (isTyping : Option Bool)
  | orderStatus (i : ι) (orderId : Option String) (body : β)
  | redis (m : Published β)

/-- The rooms of a user, joined on connect. -/
def connectRooms (user : AuthUser) : List Room :=
  .user (toString user.id) :: (if user.role = "admin" then [.admin] else []) ++
    (if user.role = "retailer" then [.retailers] else []) ++
    (if user.role = "delivery" then [.delivery, .rider (toString user.id)] else [])

/-- The roles whose chat messages go to the peer. -/
def chatStaff : List String := ["admin", "ai", "system"]

/-- The roles that may send an order status. -/
def statusRoles : List String := ["admin", "delivery"]

/-- The rooms that `startRedisFanout` emits a message to, in its order. -/
def targets {β : Type} : Published β → List Room
  | .orderStatus (some o) rider delivery _ =>
    .order o :: .admin ::
      ((rider <|> delivery).elim [] fun r => [.rider r, .user r]) ++ [.delivery]
  | .chatMessage (some c) peer role _ =>
    .chat c :: .admin :: peer.elim [] fun p => if role ∈ chatStaff then [.user p] else []
  | .deliveryLocation (some o) _ => [.order o, .admin]
  | .userPresence _ => [.admin]
  | .adminEvent _ => [.admin]
  | .userEvent (some u) _ => [.user u]
  | _ => []

/-- The sockets with their users, and the rooms by their names. -/
structure Hub (ι β : Type) where
  server : Server ι
  rooms : Rooms ι String (Packet β)

section Hub

variable {ι β : Type} [DecidableEq ι]

def Hub.start : Hub ι β := ⟨.start, .empty⟩

/-- A connected socket, and the user of it, if its token has been checked. -/
def requireUser (s : Server ι) (i : ι) : Option (Option AuthUser) :=
  match s.sockets i with
  | some (.checking true) => some none
  | some (.checked user true) => some user
  | _ => none

def Hub.send (i : ι) (p : Packet β) (h : Hub ι β) : Hub ι β := { h with rooms := h.rooms.send i p }

def Hub.emits (rs : List Room) (p : Packet β) (h : Hub ι β) : Hub ι β :=
  { h with rooms := h.rooms.emits (rs.map Room.name) p }

def Hub.emitFrom (i : ι) (r : Room) (p : Packet β) (h : Hub ι β) : Hub ι β :=
  { h with rooms := h.rooms.emitFrom i r.name p }

/-- The socket joins rooms. -/
def Hub.join (i : ι) (rs : List Room) (h : Hub ι β) : Hub ι β :=
  { h with rooms := h.rooms.join i (rs.map Room.name) }

/-- The part of `publishPresence` that is seen here: without Redis the message is emitted to
the admins.  With Redis it comes back as a published message. -/
def Hub.announce (viaRedis : Bool) (user : Option AuthUser) (online : Bool) (h : Hub ι β) :
    Hub ι β :=
  match user with
  | some u =>
    if viaRedis then h else h.emits [.admin] (.presence ⟨u.id, online, truthy (some u.role)⟩)
  | none => h

/-- `join_order` and `join_chat`. -/
def Hub.ask (i : ι) (room : Option Room) (h : Hub ι β) : Hub ι β :=
  match requireUser h.server i with
  | none => h
  | some none => h.send i (.error "Authentication required")
  | some (some _) =>
    match room with
    | none => h
    | some r => (h.join i [r]).send i (.joined r.name)

/-- The server after an event.  An event that a socket in its state cannot have is none; a
socket that has disconnected joins no room any more. -/
def hubStep (h : Hub ι β) : HubEvent ι β → Hub ι β
  | .presence viaRedis e =>
    let h' : Hub ι β := { h with server := step h.server e }
    match e with
    | .connection _ => h'
    | .authenticated i user =>
      match h.server.sockets i with
      | some (.checking connected) =>
        (match user, connected with
          | some u, true => h'.join i (connectRooms u)
          | _, _ => h').announce viaRedis user true
      | _ => h'
    | .presencePing i =>
      match h.server.sockets i with
      | some (.checked (some u) true) =>
        (h'.announce viaRedis (some u) true).send i .presencePong
      | _ => h'
    | .disconnect i =>
      match h.server.sockets i with
      | some (.checking true) => { h' with rooms := h'.rooms.leave i }
      | some (.checked user true) =>
        Hub.announce viaRedis user false { h' with rooms := h'.rooms.leave i }
      | _ => h'
  | .joinOrder i orderId => h.ask i (orderId.map .order)
  | .joinChat i conversationId => h.ask i (conversationId.map .chat)
  | .typing i conversationId isTyping =>
    match requireUser h.server i, conversationId with
    | some (some u), some c =>
      h.emitFrom i (.chat c) (.typing c u.id (isTyping.getD true))
    | _, _ => h
  | .orderStatus i orderId body =>
    match requireUser h.server i with
    | none => h
    | some none => h.send i (.error "Not allowed")
    | some (some u) =>
      if u.role ∈ statusRoles then
        match orderId with
        | none => h
        | some o => h.emits [.order o, .admin] (.status o body)
      else h.send i (.error "Not allowed")
  | .redis m => h.emits (targets m) (.published m)

end Hub

/-! ## What the fan-out is for -/

/-- The user of a socket, and the orders and conversations that it has asked for. -/
structure Seat where
  user : AuthUser
  orders : Finset String
  chats : Finset String
  deriving DecidableEq

/-- The rooms that a seat has. -/
def Seat.has (a : Seat) : Room → Prop
  | .user id => id = toString a.user.id
  | .rider id => a.user.role = "delivery" ∧ id = toString a.user.id
  | .order id => id ∈ a.orders
  | .chat id => id ∈ a.chats
  | .admin => a.user.role = "admin"
  | .retailers => a.user.role = "retailer"
  | .delivery => a.user.role = "delivery"

instance (a : Seat) (r : Room) : Decidable (a.has r) := by
  cases r <;> unfold Seat.has <;> infer_instance

section Has

variable (a : Seat) (id : String)

@[simp] theorem Seat.has_user : a.has (.user id) ↔ id = toString a.user.id := Iff.rfl

@[simp] theorem Seat.has_rider :
    a.has (.rider id) ↔ a.user.role = "delivery" ∧ id = toString a.user.id := Iff.rfl

@[simp] theorem Seat.has_order : a.has (.order id) ↔ id ∈ a.orders := Iff.rfl

@[simp] theorem Seat.has_chat : a.has (.chat id) ↔ id ∈ a.chats := Iff.rfl

@[simp] theorem Seat.has_admin : a.has .admin ↔ a.user.role = "admin" := Iff.rfl

@[simp] theorem Seat.has_retailers : a.has .retailers ↔ a.user.role = "retailer" := Iff.rfl

@[simp] theorem Seat.has_delivery : a.has .delivery ↔ a.user.role = "delivery" := Iff.rfl

end Has

/-- The seat after it has asked for an order or a conversation. -/
def Seat.ask (a : Seat) : Room → Seat
  | .order id => { a with orders := insert id a.orders }
  | .chat id => { a with chats := insert id a.chats }
  | _ => a

/-- The copies of a message that a seat is due. -/
def Seat.copies {β : Type} (a : Seat) : Published β → ℕ
  | .orderStatus (some o) rider delivery _ =>
    (if o ∈ a.orders then 1 else 0) + (if a.user.role = "admin" then 1 else 0) +
      (if (rider <|> delivery) = some (toString a.user.id) then
        if a.user.role = "delivery" then 2 else 1 else 0) +
      (if a.user.role = "delivery" then 1 else 0)
  | .chatMessage (some c) peer role _ =>
    (if c ∈ a.chats then 1 else 0) + (if a.user.role = "admin" then 1 else 0) +
      (if peer = some (toString a.user.id) ∧ role ∈ chatStaff then 1 else 0)
  | .deliveryLocation (some o) _ =>
    (if o ∈ a.orders then 1 else 0) + (if a.user.role = "admin" then 1 else 0)
  | .userPresence _ => if a.user.role = "admin" then 1 else 0
  | .adminEvent _ => if a.user.role = "admin" then 1 else 0
  | .userEvent (some u) _ => if u = toString a.user.id then 1 else 0
  | _ => 0

/-- The sockets with their seats, and no rooms. -/
structure Desk (ι β : Type) where
  server : Server ι
  seat : ι → Option Seat
  inbox : ι → List (Packet β)

section Desk

variable {ι β : Type} [DecidableEq ι]

def Desk.start : Desk ι β := ⟨.start, fun _ => none, fun _ => []⟩

def Desk.send (i : ι) (p : Packet β) (d : Desk ι β) : Desk ι β :=
  { d with inbox := Function.update d.inbox i (d.inbox i ++ [p]) }

/-- To each seat the copies that it is due. -/
def Desk.post (n : Seat → ℕ) (p : Packet β) (d : Desk ι β) : Desk ι β :=
  { d with inbox := fun i => d.inbox i ++ List.replicate ((d.seat i).elim 0 n) p }

def Desk.announce (viaRedis : Bool) (user : Option AuthUser) (online : Bool) (d : Desk ι β) :
    Desk ι β :=
  match user with
  | some u =>
    if viaRedis then d
    else d.post (fun a => if a.user.role = "admin" then 1 else 0)
      (.presence ⟨u.id, online, truthy (some u.role)⟩)
  | none => d

def Desk.ask (i : ι) (room : Option Room) (d : Desk ι β) : Desk ι β :=
  match d.seat i, room with
  | some a, some r =>
    Desk.send i (.joined r.name) { d with seat := Function.update d.seat i (some (a.ask r)) }
  | some _, none => d
  | none, _ =>
    if requireUser d.server i = some none then d.send i (.error "Authentication required") else d

/-- An event, where what is sent goes to seats. -/
def deskStep (d : Desk ι β) : HubEvent ι β → Desk ι β
  | .presence viaRedis e =>
    let d' : Desk ι β := { d with server := step d.server e }
    match e with
    | .connection _ => d'
    | .authenticated i user =>
      match d.server.sockets i with
      | some (.checking connected) =>
        (match user, connected with
          | some u, true => { d' with seat := Function.update d.seat i (some ⟨u, ∅, ∅⟩) }
          | _, _ => d').announce viaRedis user true
      | _ => d'
    | .presencePing i =>
      match d.seat i with
      | some a => (d'.announce viaRedis (some a.user) true).send i .presencePong
      | none => d'
    | .disconnect i =>
      Desk.announce viaRedis ((d.seat i).map Seat.user) false
        { d' with seat := Function.update d.seat i none }
  | .joinOrder i orderId => d.ask i (orderId.map .order)
  | .joinChat i conversationId => d.ask i (conversationId.map .chat)
  | .typing i conversationId isTyping =>
    match d.seat i, conversationId with
    | some a, some c =>
      { d with inbox := fun j =>
          if (∃ b ∈ d.seat j, c ∈ b.chats) ∧ j ≠ i then
            d.inbox j ++ [.typing c a.user.id (isTyping.getD true)] else d.inbox j }
    | _, _ => d
  | .orderStatus i orderId body =>
    match d.seat i with
    | some a =>
      if a.user.role ∈ statusRoles then
        orderId.elim d fun o =>
          d.post (fun b => (if o ∈ b.orders then 1 else 0) +
            if b.user.role = "admin" then 1 else 0) (.status o body)
      else d.send i (.error "Not allowed")
    | none => if requireUser d.server i = some none then d.send i (.error "Not allowed") else d
  | .redis m => d.post (fun a => a.copies m) (.published m)

end Desk

/-! ## The rooms do what they are for -/

section Simulation

variable {ι β : Type} [DecidableEq ι] {h : Hub ι β} {d : Desk ι β}

/-- The memberships are those of the seats, and what was received is the same. -/
structure Simulates (h : Hub ι β) (d : Desk ι β) : Prop where
  server : d.server = h.server
  inbox : h.rooms.inbox = d.inbox
  seated : Rooms.Seated Seat.has Room.name d.seat h.rooms
  users : ∀ i u, requireUser h.server i = some (some u) ↔ ∃ a ∈ d.seat i, a.user = u

omit [DecidableEq ι] in
theorem simulates_start : Simulates (Hub.start : Hub ι β) Desk.start where
  server := rfl
  inbox := rfl
  seated := Rooms.seated_empty
  users i u := by simp [Hub.start, Server.start, requireUser, Desk.start]

theorem Simulates.send (hs : Simulates h d) (i : ι) (p : Packet β) :
    Simulates (h.send i p) (d.send i p) where
  server := hs.server
  inbox := by simp [Hub.send, Desk.send, Rooms.send, hs.inbox]
  seated := hs.seated
  users := hs.users

omit [DecidableEq ι] in
theorem Simulates.emits (hs : Simulates h d) (rs : List Room) {n : Seat → ℕ}
    (hn : ∀ a, rs.countP (fun r => Seat.has a r) = n a) (p : Packet β) :
    Simulates (h.emits rs p) (d.post n p) where
  server := hs.server
  inbox := by
    funext i
    have hinbox := hs.seated.inbox_emits Room.name_injective rs p i
    simp only [Hub.emits, Desk.post, hinbox, hs.inbox, hn]
  seated := hs.seated.of_members (Rooms.members_emits ..)
  users := hs.users

omit [DecidableEq ι] in
theorem Simulates.announce (hs : Simulates h d) (viaRedis : Bool) (user : Option AuthUser)
    (online : Bool) : Simulates (h.announce viaRedis user online)
      (d.announce viaRedis user online) := by
  cases user with
  | none => exact hs
  | some u =>
    cases viaRedis with
    | true => exact hs
    | false => exact hs.emits [.admin] (fun a => by simp [List.countP_cons]) _

/-- A seat that asks for a room has it as well. -/
theorem Seat.has_ask {a : Seat} {r q : Room} (hr : (∃ id, r = .order id) ∨ ∃ id, r = .chat id) :
    (a.ask r).has q ↔ a.has q ∨ q = r := by
  obtain ⟨id, rfl⟩ | ⟨id, rfl⟩ := hr <;> cases q <;> simp [ask, has, or_comm]

theorem Seat.user_ask (a : Seat) (r : Room) : (a.ask r).user = a.user := by
  cases r <;> rfl

theorem Simulates.ask (hs : Simulates h d) (i : ι) {room : Option Room}
    (hroom : ∀ r ∈ room, (∃ id, r = .order id) ∨ ∃ id, r = .chat id) :
    Simulates (h.ask i room) (d.ask i room) := by
  cases ha : d.seat i with
  | none =>
    have hno : ∀ u, requireUser h.server i ≠ some (some u) := fun u hu => by
      simpa [ha] using (hs.users i u).1 hu
    rcases hu : requireUser h.server i with _ | _ | u
    · simpa [Hub.ask, Desk.ask, ha, hu, hs.server] using hs
    · simpa [Hub.ask, Desk.ask, ha, hu, hs.server] using hs.send i _
    · exact absurd hu (hno u)
  | some a =>
    have hu := (hs.users i a.user).2 ⟨a, ha, rfl⟩
    cases room with
    | none => simpa [Hub.ask, Desk.ask, ha, hu] using hs
    | some r =>
      have hjoin : Simulates (h.join i [r])
          { d with seat := Function.update d.seat i (some (a.ask r)) } := by
        refine ⟨hs.server, hs.inbox, ?_, ?_⟩
        · refine hs.seated.join fun q => ?_
          rw [Seat.has_ask (hroom r rfl)]
          simp [ha]
        · intro j u
          by_cases hj : j = i
          · subst hj
            simp [Hub.join, hs.users j u, ha, Seat.user_ask]
          · simpa [Hub.join, hj] using hs.users j u
      simpa [Hub.ask, Desk.ask, ha, hu] using hjoin.send i (.joined r.name)

/-- The rooms that a message is emitted to, and the copies that a seat is due. -/
theorem countP_targets (a : Seat) (m : Published β) :
    (targets m).countP (fun r => Seat.has a r) = a.copies m := by
  cases m with
  | orderStatus orderId rider delivery body =>
    cases orderId with
    | none => rfl
    | some o =>
      cases hr : rider <|> delivery with
      | none => simp [targets, Seat.copies, hr, List.countP_cons]; omega
      | some r =>
        simp [targets, Seat.copies, hr, List.countP_cons]
        split_ifs <;> simp_all
  | chatMessage conversationId peer role body =>
    cases conversationId with
    | none => rfl
    | some c =>
      cases peer with
      | none => simp [targets, Seat.copies, List.countP_cons]; omega
      | some q =>
        by_cases hrole : role ∈ chatStaff
        · simp [targets, Seat.copies, hrole, List.countP_cons]; omega
        · simp [targets, Seat.copies, hrole, List.countP_cons]; omega
  | deliveryLocation orderId body =>
    cases orderId with
    | none => rfl
    | some o => simp [targets, Seat.copies, List.countP_cons]; omega
  | userPresence body => simp [targets, Seat.copies, List.countP_cons]
  | adminEvent body => simp [targets, Seat.copies, List.countP_cons]
  | userEvent userId body =>
    cases userId with
    | none => rfl
    | some u => simp [targets, Seat.copies, List.countP_cons]
  | malformed => rfl

/-! ### One event -/

omit [DecidableEq ι] in
@[simp] theorem requireUser_publishFor (user : Option AuthUser) (online : Bool) (s : Server ι)
    (i : ι) : requireUser (publishFor user online s) i = requireUser s i := by
  cases user <;> rfl

theorem requireUser_set_of_ne (s : Server ι) {i j : ι} (socket : Socket) (hne : j ≠ i) :
    requireUser (s.set i socket) j = requireUser s j := by
  simp [requireUser, Server.set, hne]

omit [DecidableEq ι] in
/-- The server of both moves, with the same users connected. -/
theorem Simulates.serve (hs : Simulates h d) {s : Server ι}
    (husers : ∀ i, requireUser s i = requireUser h.server i) :
    Simulates { h with server := s } { d with server := s } :=
  ⟨rfl, hs.inbox, hs.seated, fun i u => by rw [husers i, hs.users i u]⟩

omit [DecidableEq ι] in
/-- A socket that nobody is signed in on has no seat. -/
theorem Simulates.seat_eq_none (hs : Simulates h d) {i : ι}
    (hi : ∀ u, requireUser h.server i ≠ some (some u)) : d.seat i = none := by
  cases ha : d.seat i with
  | none => rfl
  | some a => exact absurd ((hs.users i a.user).2 ⟨a, ha, rfl⟩) (hi a.user)

/-- The rooms joined on connect are those of a seat that has asked for nothing. -/
theorem Seat.has_connect (u : AuthUser) (r : Room) :
    Seat.has ⟨u, ∅, ∅⟩ r ↔ r ∈ connectRooms u := by
  unfold connectRooms
  cases r <;> split_ifs <;> simp_all

theorem Simulates.connection (hs : Simulates h d) (viaRedis : Bool) (i : ι) :
    Simulates (hubStep h (.presence viaRedis (.connection i)))
      (deskStep d (.presence viaRedis (.connection i))) := by
  simp only [hubStep, deskStep, hs.server]
  cases hi : h.server.sockets i with
  | some socket => simpa [step, hi] using hs.serve fun _ => rfl
  | none =>
    simp only [step, hi]
    have hseat : d.seat i = none := hs.seat_eq_none (by simp [requireUser, hi])
    refine ⟨rfl, hs.inbox, hs.seated, fun j u => ?_⟩
    by_cases hj : j = i
    · subst hj
      simp [hseat, requireUser, Server.set]
    · rw [← hs.users j u]
      simp only
      rw [requireUser_set_of_ne _ _ hj]

theorem Simulates.authenticated (hs : Simulates h d) (viaRedis : Bool) (i : ι)
    (user : Option AuthUser) :
    Simulates (hubStep h (.presence viaRedis (.authenticated i user)))
      (deskStep d (.presence viaRedis (.authenticated i user))) := by
  simp only [hubStep, deskStep, hs.server]
  split
  · rename_i connected hi
    have hseat : d.seat i = none := by
      refine hs.seat_eq_none ?_
      cases connected <;> simp [requireUser, hi]
    simp only [step, hi]
    refine Simulates.announce ?_ viaRedis user true
    split
    · rename_i u
      refine ⟨rfl, hs.inbox, ?_, fun j v => ?_⟩
      · exact hs.seated.join fun r => by simp [hseat, Seat.has_connect]
      · by_cases hj : j = i
        · subst hj
          simp [Hub.join, requireUser, Server.set, publishFor, publishPresence]
        · simp only [Hub.join, requireUser_publishFor, requireUser_set_of_ne _ _ hj]
          simpa [hj] using hs.users j v
    · rename_i hno
      refine ⟨rfl, hs.inbox, hs.seated, fun j v => ?_⟩
      by_cases hj : j = i
      · subst hj
        cases user <;> cases connected <;> simp_all [requireUser, Server.set, publishFor,
          publishPresence]
      · simp only [requireUser_publishFor, requireUser_set_of_ne _ _ hj]
        exact hs.users j v
  · rename_i hno
    refine hs.serve fun j => ?_
    simp only [step]

theorem Simulates.presencePing (hs : Simulates h d) (viaRedis : Bool) (i : ι) :
    Simulates (hubStep h (.presence viaRedis (.presencePing i)))
      (deskStep d (.presence viaRedis (.presencePing i))) := by
  have hserve : Simulates { h with server := step h.server (.presencePing i) }
      { d with server := step h.server (.presencePing i) } := by
    refine hs.serve fun j => ?_
    simp only [step]
    split
    · exact requireUser_publishFor ..
    · rfl
  simp only [hubStep, deskStep, hs.server]
  cases ha : d.seat i with
  | none =>
    split
    · rename_i u hi
      have hu : requireUser h.server i = some (some u) := by simp [requireUser, hi]
      obtain ⟨a, hmem, -⟩ := (hs.users i u).1 hu
      simp [ha] at hmem
    · exact hserve
  | some a =>
    have hu := (hs.users i a.user).2 ⟨a, ha, rfl⟩
    have hi : h.server.sockets i = some (.checked (some a.user) true) := by
      unfold requireUser at hu
      split at hu <;> simp_all
    simp only [hi]
    exact (hserve.announce viaRedis (some a.user) true).send i .presencePong

/-- A socket that leaves its rooms gives up its seat. -/
theorem Simulates.leave (hs : Simulates h d) (i : ι) {s : Server ι}
    (hi : ∀ u, requireUser s i ≠ some (some u))
    (husers : ∀ j, j ≠ i → requireUser s j = requireUser h.server j) :
    Simulates ⟨s, h.rooms.leave i⟩
      { d with server := s, seat := Function.update d.seat i none } where
  server := rfl
  inbox := hs.inbox
  seated := hs.seated.leave i
  users j u := by
    by_cases hj : j = i
    · subst hj
      simp [hi u]
    · simp only [husers j hj, hs.users j u, Function.update_of_ne hj]

theorem Simulates.disconnect (hs : Simulates h d) (viaRedis : Bool) (i : ι) :
    Simulates (hubStep h (.presence viaRedis (.disconnect i)))
      (deskStep d (.presence viaRedis (.disconnect i))) := by
  simp only [hubStep, deskStep, hs.server]
  split
  · rename_i hi
    have hseat : d.seat i = none := hs.seat_eq_none (by simp [requireUser, hi])
    simp only [step, hi, hseat, Option.map_none]
    exact hs.leave i (by simp [requireUser, Server.set])
      fun j hj => requireUser_set_of_ne _ _ hj
  · rename_i user hi
    have huser : (d.seat i).map Seat.user = user := by
      have hu : requireUser h.server i = some user := by simp [requireUser, hi]
      cases user with
      | none => rw [hs.seat_eq_none (by simp [hu]), Option.map_none]
      | some u =>
        obtain ⟨a, ha, rfl⟩ := (hs.users i u).1 hu
        rw [Option.mem_def.1 ha, Option.map_some]
    simp only [step, hi, huser]
    refine Simulates.announce ?_ viaRedis user false
    refine hs.leave i (by simp [requireUser, Server.set, publishFor]; cases user <;>
      simp [publishPresence]) fun j hj => ?_
    rw [requireUser_publishFor, requireUser_set_of_ne _ _ hj]
  · rename_i hchecking hchecked
    have hu : ∀ u, requireUser h.server i ≠ some (some u) := by
      intro u
      unfold requireUser
      split <;> simp_all
    have hstep : step h.server (.disconnect i) = h.server := by simp only [step]
    have hseat := hs.seat_eq_none hu
    have hupdate : Function.update d.seat i none = d.seat := by
      rw [← hseat, Function.update_eq_self]
    simp only [hstep, hseat, Option.map_none, hupdate]
    exact hs.serve fun _ => rfl

/-- What is emitted to a room but for the sender. -/
theorem Simulates.typing (hs : Simulates h d) (i : ι) (conversationId : Option String)
    (isTyping : Option Bool) : Simulates (hubStep h (.typing i conversationId isTyping))
      (deskStep d (.typing i conversationId isTyping)) := by
  simp only [hubStep, deskStep]
  cases ha : d.seat i with
  | none =>
    have hno : ∀ u, requireUser h.server i ≠ some (some u) := fun u hu => by
      simpa [ha] using (hs.users i u).1 hu
    split
    · rename_i u c hu
      exact absurd hu (hno u)
    · exact hs
  | some a =>
    have hu := (hs.users i a.user).2 ⟨a, ha, rfl⟩
    cases conversationId with
    | none => simpa [hu] using hs
    | some c =>
      simp only [hu]
      refine ⟨hs.server, ?_, hs.seated, hs.users⟩
      funext j
      have hmem := hs.seated.mem_iff Room.name_injective (i := j) (r := .chat c)
      simp [Hub.emitFrom, Rooms.emitFrom, hmem, hs.inbox]

theorem Simulates.orderStatus (hs : Simulates h d) (i : ι) (orderId : Option String) (body : β) :
    Simulates (hubStep h (.orderStatus i orderId body))
      (deskStep d (.orderStatus i orderId body)) := by
  simp only [hubStep, deskStep, hs.server]
  cases ha : d.seat i with
  | none =>
    have hno : ∀ u, requireUser h.server i ≠ some (some u) := fun u hu => by
      simpa [ha] using (hs.users i u).1 hu
    rcases hu : requireUser h.server i with _ | _ | u
    · simpa using hs
    · simpa using hs.send i _
    · exact absurd hu (hno u)
  | some a =>
    have hu := (hs.users i a.user).2 ⟨a, ha, rfl⟩
    simp only [hu]
    split_ifs
    · cases orderId with
      | none => exact hs
      | some o =>
        exact hs.emits [.order o, .admin]
          (fun b => by simp [List.countP_cons, Nat.add_comm]) _
    · exact hs.send i _

theorem simulates_step (hs : Simulates h d) (e : HubEvent ι β) :
    Simulates (hubStep h e) (deskStep d e) := by
  cases e with
  | presence viaRedis e =>
    cases e with
    | connection i => exact hs.connection viaRedis i
    | authenticated i user => exact hs.authenticated viaRedis i user
    | presencePing i => exact hs.presencePing viaRedis i
    | disconnect i => exact hs.disconnect viaRedis i
  | joinOrder i orderId =>
    exact hs.ask i fun r hr => Or.inl ((Option.mem_map.1 hr).imp fun _ h => h.2.symm)
  | joinChat i conversationId =>
    exact hs.ask i fun r hr => Or.inr ((Option.mem_map.1 hr).imp fun _ h => h.2.symm)
  | typing i conversationId isTyping => exact hs.typing i conversationId isTyping
  | orderStatus i orderId body => exact hs.orderStatus i orderId body
  | redis m => exact hs.emits (targets m) (fun a => countP_targets a m) _

/-- Along every run the rooms and the seats stay together. -/
theorem simulates_run (es : List (HubEvent ι β)) :
    Simulates (run hubStep Hub.start es) (run deskStep Desk.start es) := by
  induction es using List.reverseRecOn with
  | nil => exact simulates_start
  | append_singleton es e ih =>
    rw [run_concat, run_concat]
    exact simulates_step ih e

/-- Along every run a socket receives what its seat is due, copy for copy. -/
theorem inbox_eq (es : List (HubEvent ι β)) (i : ι) :
    (run hubStep Hub.start es).rooms.inbox i = (run deskStep Desk.start es).inbox i := by
  rw [(simulates_run es).inbox]

end Simulation

/-! ## What nobody receives -/

/-- What a user has a right to, where `orders` and `chats` have been asked for. -/
def MayReceive {β : Type} (u : AuthUser) (orders chats : String → Prop) : Packet β → Prop
  | .published (.orderStatus (some o) rider delivery _) =>
    orders o ∨ u.role = "admin" ∨ u.role = "delivery" ∨
      (rider <|> delivery) = some (toString u.id)
  | .published (.chatMessage (some c) peer role _) =>
    chats c ∨ u.role = "admin" ∨ peer = some (toString u.id) ∧ role ∈ chatStaff
  | .published (.deliveryLocation (some o) _) => orders o ∨ u.role = "admin"
  | .published (.userPresence _) => u.role = "admin"
  | .published (.adminEvent _) => u.role = "admin"
  | .published (.userEvent (some x) _) => x = toString u.id
  | .published _ => False
  | .presence _ => u.role = "admin"
  | .typing c _ _ => chats c
  | .status o _ => orders o ∨ u.role = "admin"
  | .error _ => True
  | .joined _ => True
  | .presencePong => True

section Rights

variable {ι β : Type} [DecidableEq ι]

/-- What a seat may receive. -/
def Seat.May (a : Seat) (p : Packet β) : Prop := MayReceive a.user (· ∈ a.orders) (· ∈ a.chats) p

theorem MayReceive.mono {u : AuthUser} {orders chats orders' chats' : String → Prop}
    {p : Packet β} (h : MayReceive u orders chats p) (ho : ∀ o, orders o → orders' o)
    (hc : ∀ c, chats c → chats' c) : MayReceive u orders' chats' p := by
  unfold MayReceive at h ⊢
  split <;> simp_all <;> grind

/-- A seat that is due a copy may receive it. -/
theorem Seat.may_of_copies {a : Seat} {m : Published β} (h : a.copies m ≠ 0) :
    a.May (.published m) := by
  unfold Seat.May MayReceive
  unfold Seat.copies at h
  split at h <;> simp_all <;> grind

omit [DecidableEq ι] in
theorem mem_post {d : Desk ι β} {n : Seat → ℕ} {p q : Packet β} {j : ι}
    (h : q ∈ (d.post n p).inbox j) : q ∈ d.inbox j ∨ q = p ∧ ∃ a ∈ d.seat j, n a ≠ 0 := by
  simp only [Desk.post, List.mem_append, List.mem_replicate] at h
  refine h.imp_right fun ⟨hn, hq⟩ => ⟨hq, ?_⟩
  cases ha : d.seat j with
  | none => simp [ha] at hn
  | some a => exact ⟨a, rfl, by simpa [ha] using hn⟩

theorem mem_send {d : Desk ι β} {p q : Packet β} {i j : ι} (h : q ∈ (d.send i p).inbox j) :
    q ∈ d.inbox j ∨ q = p ∧ j = i := by
  by_cases hj : j = i
  · subst hj
    simpa [Desk.send] using h
  · left
    simpa [Desk.send, hj] using h

/-- What one event puts into an inbox is an error, or the seat may receive it. -/
def New (d : Desk ι β) (j : ι) (p : Packet β) : Prop :=
  (∃ detail, p = .error detail) ∨ ∃ a ∈ d.seat j, a.May p

omit [DecidableEq ι] in
theorem mem_announce {d : Desk ι β} {viaRedis online : Bool} {user : Option AuthUser}
    {j : ι} {p : Packet β} (h : p ∈ (d.announce viaRedis user online).inbox j) :
    p ∈ d.inbox j ∨ New d j p := by
  unfold Desk.announce at h
  split at h
  · split at h
    · exact Or.inl h
    · refine (mem_post h).imp_right fun ⟨hp, a, ha, hn⟩ => Or.inr ⟨a, ha, ?_⟩
      subst hp
      simpa [Seat.May, MayReceive] using hn
  · exact Or.inl h

omit [DecidableEq ι] in
@[simp] theorem seat_announce (d : Desk ι β) (viaRedis online : Bool) (user : Option AuthUser) :
    (d.announce viaRedis user online).seat = d.seat := by
  unfold Desk.announce
  split
  · split <;> rfl
  · rfl

@[simp] theorem seat_send (d : Desk ι β) (i : ι) (p : Packet β) : (d.send i p).seat = d.seat := rfl

theorem mem_ask {d : Desk ι β} {i j : ι} {room : Option Room} {p : Packet β}
    (h : p ∈ (d.ask i room).inbox j) : p ∈ d.inbox j ∨ New (d.ask i room) j p := by
  unfold Desk.ask at h ⊢
  split at h
  · rename_i a r ha
    refine (mem_send h).imp_right fun ⟨hp, hj⟩ => Or.inr ⟨a.ask r, ?_, ?_⟩
    · simp [hj]
    · subst hp
      trivial
  · exact Or.inl h
  · split at h
    · exact (mem_send h).imp_right fun ⟨hp, _⟩ => Or.inl ⟨_, hp⟩
    · exact Or.inl h

theorem mem_deskStep {d : Desk ι β} {e : HubEvent ι β} {j : ι} {p : Packet β}
    (h : p ∈ (deskStep d e).inbox j) : p ∈ d.inbox j ∨ New (deskStep d e) j p := by
  cases e with
  | presence viaRedis e =>
    cases e with
    | connection i => exact Or.inl h
    | authenticated i user =>
      simp only [deskStep] at h ⊢
      split at h
      · rename_i connected hi
        rcases mem_announce h with hold | hnew
        · left
          revert hold
          split <;> exact id
        · right
          simpa only [New, seat_announce] using hnew
      · exact Or.inl h
    | presencePing i =>
      simp only [deskStep] at h ⊢
      split at h
      · rename_i a ha
        rcases mem_send h with hsent | ⟨hp, hj⟩
        · refine (mem_announce hsent).imp_right fun hnew => ?_
          simpa only [New, seat_announce, seat_send] using hnew
        · refine Or.inr (Or.inr ⟨a, by simp [hj, ha], ?_⟩)
          subst hp
          trivial
      · exact Or.inl h
    | disconnect i =>
      refine (mem_announce h).imp_right fun hnew => ?_
      simpa only [New, deskStep, seat_announce] using hnew
  | joinOrder i orderId => exact mem_ask h
  | joinChat i conversationId => exact mem_ask h
  | typing i conversationId isTyping =>
    simp only [deskStep] at h ⊢
    split at h
    · rename_i a c ha
      simp only at h
      split at h
      · rename_i hb
        obtain ⟨⟨b, hb, hc⟩, -⟩ := hb
        rcases List.mem_append.1 h with hold | hnew
        · exact Or.inl hold
        · rw [List.mem_singleton.1 hnew]
          exact Or.inr (Or.inr ⟨b, hb, hc⟩)
      · exact Or.inl h
    · exact Or.inl h
  | orderStatus i orderId body =>
    simp only [deskStep] at h ⊢
    split at h
    · rename_i a ha
      split at h
      · rename_i hrole
        cases orderId with
        | none => exact Or.inl h
        | some o =>
          refine (mem_post h).imp_right fun ⟨hp, b, hb, hn⟩ => ?_
          subst hp
          refine Or.inr ⟨b, by simpa [ha, hrole, Desk.post] using hb, ?_⟩
          simp only [Seat.May, MayReceive]
          by_contra hno
          push Not at hno
          simp [hno.1, hno.2] at hn
      · exact (mem_send h).imp_right fun ⟨hp, _⟩ => Or.inl ⟨_, hp⟩
    · split at h
      · exact (mem_send h).imp_right fun ⟨hp, _⟩ => Or.inl ⟨_, hp⟩
      · exact Or.inl h
  | redis m =>
    refine (mem_post h).imp_right fun ⟨hp, a, ha, hn⟩ => ?_
    subst hp
    exact Or.inr ⟨a, ha, Seat.may_of_copies hn⟩

/-- A seat has asked, by the events so far, for what it has. -/
def Asked (es : List (HubEvent ι β)) (i : ι) (a : Seat) : Prop :=
  (∀ o ∈ a.orders, .joinOrder i (some o) ∈ es) ∧ ∀ c ∈ a.chats, .joinChat i (some c) ∈ es

omit [DecidableEq ι] in
theorem Asked.mono {es fs : List (HubEvent ι β)} {i : ι} {a : Seat} (h : Asked es i a)
    (hsub : es ⊆ fs) : Asked fs i a :=
  ⟨fun o ho => hsub (h.1 o ho), fun c hc => hsub (h.2 c hc)⟩

theorem Asked.ask {d : Desk ι β} {es fs : List (HubEvent ι β)} {i j : ι} {room : Option Room}
    {a : Seat} (hd : ∀ j b, d.seat j = some b → Asked es j b) (hsub : es ⊆ fs)
    (hroom : ∀ r ∈ room, (∃ o, r = .order o ∧ .joinOrder i (some o) ∈ fs) ∨
      ∃ c, r = .chat c ∧ .joinChat i (some c) ∈ fs)
    (h : (d.ask i room).seat j = some a) : Asked fs j a := by
  unfold Desk.ask at h
  split at h
  · rename_i b r hb
    by_cases hj : j = i
    · subst hj
      simp only [seat_send, Function.update_self, Option.some.injEq] at h
      subst h
      have hold := (hd j b hb).mono hsub
      obtain ⟨o, rfl, ho⟩ | ⟨c, rfl, hc⟩ := hroom r rfl
      · exact ⟨fun x hx => (Finset.mem_insert.1 hx).elim (fun hx => hx ▸ ho) (hold.1 x), hold.2⟩
      · exact ⟨hold.1, fun x hx => (Finset.mem_insert.1 hx).elim (fun hx => hx ▸ hc) (hold.2 x)⟩
    · simp only [seat_send, Function.update_of_ne hj] at h
      exact (hd j a h).mono hsub
  · exact (hd j a h).mono hsub
  · split at h
    · exact (hd j a h).mono hsub
    · exact (hd j a h).mono hsub

/-- One event keeps that the seats have asked for what they have. -/
theorem asked_step {d : Desk ι β} {es : List (HubEvent ι β)} {e : HubEvent ι β}
    (hd : ∀ j b, d.seat j = some b → Asked es j b) {j : ι} {a : Seat}
    (h : (deskStep d e).seat j = some a) : Asked (es ++ [e]) j a := by
  have hsub : es ⊆ es ++ [e] := List.subset_append_left es [e]
  have hold : d.seat j = some a → Asked (es ++ [e]) j a := fun hj => (hd j a hj).mono hsub
  have hlast : e ∈ es ++ [e] := by simp
  cases e with
  | presence viaRedis e =>
    cases e with
    | connection i => exact hold h
    | authenticated i user =>
      simp only [deskStep] at h
      split at h
      · rw [seat_announce] at h
        split at h
        · by_cases hj : j = i
          · subst hj
            simp only [Function.update_self, Option.some.injEq] at h
            subst h
            exact ⟨fun o ho => by simp at ho, fun c hc => by simp at hc⟩
          · simp only [Function.update_of_ne hj] at h
            exact hold h
        · exact hold h
      · exact hold h
    | presencePing i =>
      simp only [deskStep] at h
      split at h
      · exact hold (by simpa using h)
      · exact hold h
    | disconnect i =>
      simp only [deskStep, seat_announce] at h
      by_cases hj : j = i
      · simp [hj] at h
      · rw [Function.update_of_ne hj] at h
        exact hold h
  | joinOrder i orderId =>
    refine Asked.ask hd hsub (fun r hr => Or.inl ?_) h
    obtain ⟨o, rfl, rfl⟩ := Option.map_eq_some_iff.1 hr
    exact ⟨o, rfl, hlast⟩
  | joinChat i conversationId =>
    refine Asked.ask hd hsub (fun r hr => Or.inr ?_) h
    obtain ⟨c, rfl, rfl⟩ := Option.map_eq_some_iff.1 hr
    exact ⟨c, rfl, hlast⟩
  | typing i conversationId isTyping =>
    simp only [deskStep] at h
    split at h
    · exact hold h
    · exact hold h
  | orderStatus i orderId body =>
    refine hold ?_
    have hseat : (deskStep d (.orderStatus i orderId body)).seat = d.seat := by
      simp only [deskStep]
      split
      · split
        · cases orderId <;> rfl
        · rfl
      · split <;> rfl
    rwa [hseat] at h
  | redis m => exact hold h

theorem asked_run (es : List (HubEvent ι β)) (j : ι) (a : Seat)
    (h : (run deskStep Desk.start es).seat j = some a) : Asked es j a := by
  induction es using List.reverseRecOn generalizing j a with
  | nil => simp [Desk.start] at h
  | append_singleton es e ih =>
    rw [run_concat] at h
    exact asked_step ih h

/-- The user that was found for a socket stays the user of it. -/
theorem user_stays {s : Server ι} {i : ι} {u : AuthUser} {connected : Bool} (e : Event ι)
    (h : s.sockets i = some (.checked (some u) connected)) :
    ∃ connected', (step s e).sockets i = some (.checked (some u) connected') := by
  have hset : ∀ j socket, j ≠ i →
      (s.set j socket).sockets i = some (.checked (some u) connected) :=
    fun j socket hj => by simpa [Server.set, Ne.symm hj] using h
  have hpublish : ∀ user online (t : Server ι), (publishFor user online t).sockets = t.sockets :=
    fun user online t => by cases user <;> rfl
  cases e with
  | connection j =>
    simp only [step]
    split
    · rename_i hj
      exact ⟨connected, hset j _ fun heq => by simp [heq ▸ hj] at h⟩
    · exact ⟨connected, h⟩
  | authenticated j user =>
    simp only [step]
    split
    · rename_i c hj
      rw [hpublish]
      exact ⟨connected, hset j _ fun heq => by simp [heq ▸ hj] at h⟩
    · exact ⟨connected, h⟩
  | presencePing j =>
    simp only [step]
    split
    · rw [hpublish]
      exact ⟨connected, h⟩
    · exact ⟨connected, h⟩
  | disconnect j =>
    simp only [step]
    split
    · rename_i hj
      exact ⟨connected, hset j _ fun heq => by simp [heq ▸ hj] at h⟩
    · rename_i user hj
      rw [hpublish]
      by_cases heq : j = i
      · subst heq
        rw [h] at hj
        cases hj
        exact ⟨false, by simp [Server.set]⟩
      · exact ⟨connected, hset j _ heq⟩
    · exact ⟨connected, h⟩

/-- The event of the presence model. -/
def HubEvent.onServer : HubEvent ι β → Option (Event ι)
  | .presence _ e => some e
  | _ => none

omit [DecidableEq ι] in
@[simp] theorem server_announce (h : Hub ι β) (viaRedis online : Bool) (user : Option AuthUser) :
    (h.announce viaRedis user online).server = h.server := by
  unfold Hub.announce
  split
  · split <;> rfl
  · rfl

theorem server_ask (h : Hub ι β) (i : ι) (room : Option Room) :
    (h.ask i room).server = h.server := by
  unfold Hub.ask
  split
  · rfl
  · rfl
  · split <;> rfl

/-- The sockets are those of the presence model. -/
theorem server_hubStep (h : Hub ι β) (e : HubEvent ι β) :
    (hubStep h e).server = e.onServer.elim h.server (step h.server) := by
  cases e with
  | presence viaRedis e =>
    simp only [hubStep, HubEvent.onServer, Option.elim_some]
    cases e with
    | connection i => rfl
    | authenticated i user =>
      simp only
      split
      · rw [server_announce]
        split <;> rfl
      · rfl
    | presencePing i =>
      simp only
      split
      · simp [Hub.send]
      · rfl
    | disconnect i =>
      simp only
      split
      · rfl
      · rw [server_announce]
      · rfl
  | joinOrder i orderId => exact server_ask ..
  | joinChat i conversationId => exact server_ask ..
  | typing i conversationId isTyping =>
    simp only [hubStep]
    split <;> rfl
  | orderStatus i orderId body =>
    simp only [hubStep]
    split
    · rfl
    · rfl
    · split
      · split <;> rfl
      · rfl
  | redis m => rfl

/-- Every packet that a socket has received along a run is an error, or the token of the socket
was checked and its user has a right to the packet: by the id, by the role, or because the
socket asked for the order or the conversation. -/
theorem received_by_right (es : List (HubEvent ι β)) (i : ι) (p : Packet β)
    (h : p ∈ (run hubStep Hub.start es).rooms.inbox i) : (∃ detail, p = .error detail) ∨
      ∃ u connected, (run hubStep Hub.start es).server.sockets i =
          some (.checked (some u) connected) ∧
        MayReceive u (fun o => .joinOrder i (some o) ∈ es) (fun c => .joinChat i (some c) ∈ es) p := by
  rw [inbox_eq] at h
  induction es using List.reverseRecOn with
  | nil => simp [Desk.start] at h
  | append_singleton es e ih =>
    have hs := simulates_run (es ++ [e])
    have hsub : es ⊆ es ++ [e] := List.subset_append_left es [e]
    rw [run_concat] at h
    rcases mem_deskStep h with hold | hnew
    · refine (ih hold).imp_right fun ⟨u, connected, hi, hmay⟩ => ?_
      rw [run_concat, server_hubStep]
      have hmay' := hmay.mono (fun o ho => hsub ho) fun c hc => hsub hc
      cases e.onServer with
      | none => exact ⟨u, connected, hi, hmay'⟩
      | some e' =>
        obtain ⟨connected', hi'⟩ := user_stays e' hi
        exact ⟨u, connected', hi', hmay'⟩
    · refine hnew.imp_right fun ⟨a, ha, hmay⟩ => ?_
      rw [← run_concat deskStep] at ha
      have hasked := asked_run _ i a ha
      have hu := (hs.users i a.user).2 ⟨a, ha, rfl⟩
      refine ⟨a.user, true, ?_, hmay.mono hasked.1 hasked.2⟩
      unfold requireUser at hu
      split at hu <;> simp_all

/-- A customer asks for an order, a shop's message to the customer is published, and one to
somebody else. -/
def customerRun : List (HubEvent ℕ String) :=
  [.presence true (.connection 0), .joinOrder 0 (some "11"),
    .presence true (.authenticated 0 (some ⟨7, "customer"⟩)), .joinOrder 0 (some "12"),
    .redis (.userEvent (some "7") "yours"), .redis (.userEvent (some "8") "theirs"),
    .redis (.orderStatus (some "12") none none "packed")]

theorem received_by_right_customer :
    Packet.published (.userEvent (some "7") "yours") ∈
        (run hubStep Hub.start customerRun).rooms.inbox 0 ∧
      ∃ u connected, (run hubStep Hub.start customerRun).server.sockets 0 =
          some (.checked (some u) connected) ∧
        MayReceive u (fun o => .joinOrder 0 (some o) ∈ customerRun)
          (fun c => .joinChat 0 (some c) ∈ customerRun)
          (Packet.published (.userEvent (some "7") "yours")) := by
  have hmem : Packet.published (.userEvent (some "7") "yours") ∈
      (run hubStep Hub.start customerRun).rooms.inbox 0 := by
    decide
  refine ⟨hmem, (received_by_right customerRun 0 _ hmem).resolve_left ?_⟩
  rintro ⟨detail, h⟩
  cases h

end Rights

end Realtime

end SweetCrust
