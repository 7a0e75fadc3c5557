import SweetCrust.Orders.Beside

/-!
# What the order services never touch

The requests that move an order, pay it or return it write the order, its history, tracking,
returns, payments and invoice, what its customer has spent, the riders, the notifications, the
settings, and whether a shop may sell.  The stock, the carts, the coupons, the addresses, the
ledger and the lines of orders are not theirs, in whatever order they are served.

* `rest_served` — no request changes the rest, and only the payment service the payments and
  invoices.
* `unpaid_run` — what is left as it is along every run.
-/

namespace SweetCrust

open Tabular Session

namespace Orders

/-- No request changes the rest, and only the payment service the payments and invoices. -/
theorem rest_served (env : Payment.Env) (w : World) (r : Request) :
    rest (served env w r) = rest w.db ∨
      (∃ call, r = .pay call) ∧ unpaid (served env w r) = unpaid w.db := by
  cases r with
  | cancel u o reason => exact Or.inl ((leaves_cancelOrder o u reason w.now).snd.final w.db)
  | createReturn u data => exact Or.inl ((leaves_createReturn u data w.now).snd.final w.db)
  | admin o text note p => exact Or.inl ((leaves_adminUpdate o text note p w.now).snd.final w.db)
  | offer o p => exact Or.inl ((leaves_adminUpdate o _ _ _ w.now).snd.final w.db)
  | assign o p => exact Or.inl ((leaves_adminUpdate o _ _ _ w.now).snd.final w.db)
  | sales u o text note =>
    exact Or.inl ((leaves_updateSalesStatus u o text note w.now).snd.final w.db)
  | start o => exact Or.inl ((leaves_move o _ _ _).snd.final w.db)
  | pack o => exact Or.inl ((leaves_move o _ _ _).snd.final w.db)
  | route o p => exact Or.inl ((leaves_assign o p).snd.final w.db)
  | accept u user o => exact Or.inl ((leaves_acceptOrder u user o w.now).snd.final w.db)
  | reject u user o => exact Or.inl ((leaves_rejectOrder u user o).snd.final w.db)
  | trip u user o text => exact Or.inl ((leaves_trip u user o text).snd.final w.db)
  | deliver u user o => exact Or.inl ((leaves_markDelivered u user o w.now).snd.final w.db)
  | myOrders u user => exact Or.inl ((leaves_myOrders u user w.now).snd.final w.db)
  | pay call => exact Or.inr ⟨⟨call, rfl⟩, congrArg Prod.snd (tracked_pay env w.db call)⟩
  | wait n => exact Or.inl rfl

/-- The invoices stay, unless the payment service is called. -/
theorem invoices_served (env : Payment.Env) (w : World) (r : Request) :
    (served env w r).invoices = w.db.invoices ∨ ∃ call, r = .pay call := by
  rcases rest_served env w r with h | ⟨hpay, -⟩
  · have hinvoices : (rest (served env w r)).invoices = (rest w.db).invoices := by rw [h]
    exact Or.inl hinvoices
  · exact Or.inr hpay

theorem unpaid_served (env : Payment.Env) (w : World) (r : Request) :
    unpaid (served env w r) = unpaid w.db := by
  rcases rest_served env w r with h | ⟨-, h⟩
  · exact congrArg (fun db : Db => { db with payments := .empty, invoices := .empty }) h
  · exact h

/-- Whatever requests are served, one after another: the products and their movements, the carts,
the coupons, the addresses, the lines of orders, the ledger, the purchase orders, the categories,
the codes and the reviews stay as they are. -/
theorem unpaid_run (env : Payment.Env) (w : World) (rs : List Request) :
    unpaid (Runs.run (step env) w rs).db = unpaid w.db :=
  Runs.run_induction (I := fun v => unpaid v.db = unpaid w.db)
    (fun v r hv => (unpaid_served env v r).trans hv) rfl rs

end Orders

end SweetCrust
