import SweetCrust.Payment.Effects

/-!
# What the payment handlers leave alone

A handler called for one order leaves the row and the newest payment of every other
order as they were, in each state it commits; and a webhook delivery leaves an order
alone whose newest payment is paid.
-/

namespace SweetCrust

open Tabular Session Text

namespace Payment

section Frames

variable {env : Env} {o : ℕ} {db t : Db}

/-- Handlers that start with `get_order_payment`: a transitive relation that the
opening of a payment row satisfies, and that the handler satisfies once the row is
there, holds from the start to each committed state. -/
theorem rel_of_found {P : Db → Db → Prop} {m : Db → List Db} {userId o' : ℕ} {txn : String}
    (htrans : ∀ a b c, P a b → P b c → P a c)
    (hnone : ∀ db, ownOrder db userId o' = none → m db = [])
    (hmissing : ∀ db order, ownOrder db userId o' = some order → latestPayment db o' = none →
      m db = withPayment userId o' order txn db :: m (withPayment userId o' order txn db))
    (hopen : ∀ db order, latestPayment db o' = none → P db (withPayment userId o' order txn db))
    (hfound : ∀ db order i p, ownOrder db userId o' = some order →
      latestPayment db o' = some (i, p) → ∀ t ∈ m db, P db t)
    (ht : t ∈ m db) : P db t := by
  cases hown : ownOrder db userId o' with
  | none =>
    rw [hnone db hown] at ht
    exact absurd ht (by simp)
  | some order =>
    cases hp : latestPayment db o' with
    | some r => exact hfound db order r.1 r.2 hown hp t ht
    | none =>
      rw [hmissing db order hown hp, List.mem_cons] at ht
      rcases ht with rfl | ht
      · exact hopen db order hp
      · exact htrans _ _ _ (hopen db order hp)
          (hfound (withPayment userId o' order txn db) order _ _ hown
            (latestPayment_withPayment userId o' order txn db) t ht)

theorem same_razorpayVerify_of_ne {userId o' : ℕ} {roid pid sig txn : String} (hne : o ≠ o')
    (ht : t ∈ commits (razorpayVerify env userId o' roid pid sig txn) db) : Same o db t := by
  refine rel_of_found (fun _ _ _ => Same.trans) (fun db h => quiet_razorpayVerify_notFound h)
    (fun db order h hp => commits_razorpayVerify_missing h hp)
    (fun db order _ => same_withPayment hne) ?_ ht
  intro db order i p hown hp t ht
  obtain ⟨_, rfl | rfl⟩ := mem_commits_razorpayVerify hown hp ht
  · refine same_of_write hp hne (invoiced_payments _ _ _) (fun q => rfl) ?_
    rw [invoiced_orders]
    exact Table.get?_modify_of_ne _ _ hne
  · exact same_of_write hp hne rfl (fun q => rfl) (Table.get?_modify_of_ne _ _ hne)

theorem same_razorpayCreate_of_ne {gateway : Gateway} {userId o' : ℕ} {user : User}
    {link : Bool} {txn : String} (hne : o ≠ o')
    (ht : t ∈ commits (razorpayCreate env gateway userId user o' link txn) db) :
    Same o db t := by
  refine rel_of_found (fun _ _ _ => Same.trans) (fun db h => quiet_razorpayCreate_notFound h)
    (fun db order h hp => commits_razorpayCreate_missing h hp)
    (fun db order _ => same_withPayment hne) ?_ ht
  intro db order i p hown hp t ht
  obtain ⟨_, rzOrder, rzLink, _, rfl⟩ := mem_commits_razorpayCreate hown hp ht
  exact same_of_write hp hne rfl (fun q => rfl) (Table.get?_modify_of_ne _ _ hne)

theorem same_processPayment_of_ne {userId o' : ℕ} {method : String} {upiId : Option String}
    {fail : Bool} (hne : o ≠ o')
    (ht : t ∈ commits (processPayment userId o' method upiId fail) db) : Same o db t := by
  have hquiet : ∀ {l : List Db}, l = [] → t ∉ l := fun h => h ▸ List.not_mem_nil
  cases hown : ownOrder db userId o' with
  | none => exact absurd ht (hquiet (quiet_processPayment (Or.inl hown)))
  | some order =>
    cases hp : latestPayment db o' with
    | none => exact absurd ht (hquiet (quiet_processPayment_missing hp))
    | some r =>
      obtain ⟨i, p⟩ := r
      cases hm : PaymentMethod.ofValue? method with
      | none => exact absurd ht (hquiet (quiet_processPayment (Or.inr hm)))
      | some chosen =>
        obtain ⟨rest, hcommits, hrest⟩ := commits_processPayment upiId fail hown hp hm
        have hstart : Same o db (startProcessing i chosen upiId db) :=
          same_of_write hp hne rfl (fun q => rfl) rfl
        have hp' : latestPayment (startProcessing i chosen upiId db) o' =
            some (i, processingPayment chosen upiId p) :=
          latestPayment_modify hp rfl fun q => rfl
        rw [hcommits, List.mem_cons] at ht
        rcases ht with rfl | ht
        · exact hstart
        · rcases hrest t ht with rfl | rfl
          · exact hstart.trans
              (same_of_write hp' hne rfl (fun q => rfl) (Table.get?_modify_of_ne _ _ hne))
          · refine hstart.trans
              (same_of_write hp' hne (invoiced_payments _ _ _) (fun q => rfl) ?_)
            rw [invoiced_orders]
            exact Table.get?_modify_of_ne _ _ hne

/-- A webhook delivery touches only orders whose payment is not paid. -/
theorem same_razorpayWebhook {body : WebhookBody} {signature : String} {i : ℕ}
    {p : SweetCrust.Payment} (hp : latestPayment db o = some (i, p)) (hpaid : p.status = .paid)
    (ht : t ∈ commits (razorpayWebhook env body signature) db) : Same o db t := by
  obtain ⟨payload, event, o', order, j, q, _, _, _, hq, hopen, rfl⟩ :=
    mem_commits_razorpayWebhook ht
  have hne : o ≠ o' := by
    rintro rfl
    rw [hp] at hq
    cases hq
    exact hopen hpaid
  exact same_of_write hq hne rfl (fun q => rfl) (Table.get?_modify_of_ne _ _ hne)

end Frames

end Payment

end SweetCrust
