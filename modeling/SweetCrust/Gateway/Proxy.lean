import SweetCrust.Lib.Prefixes

/-!
# The routes of the gateway

The gateway passes a request on to one of the services, by a prefix of its path.  The routes are
written down with the most specific prefixes first.

* `routes`, `proxied` — the routes, in the order in which they are registered, and the first one
  that covers a path.
* `proxied_iff` — on every path that is the route with the longest prefix, so it makes no difference
  whether the router takes the first or the longest.
* `exists_proxied_iff` — what is passed on at all.
-/

namespace SweetCrust

open Prefixes

namespace Gateway

/-- The services that requests are passed on to. -/
inductive Upstream
  | auth | catalog | cart | payment | rider | ai | storeOps | user | search | assortment | pricing
  | promotion | inventory | picking | checkout | order | location | dispatch | tracking | routing
  | notification | support | analytics | forecast | commerce
  deriving DecidableEq

/-- What is between the slashes of a path, from the first slash on. -/
def segments (path : String) : List (List Char) := (path.toList.drop 1).splitOn '/'

/-- The table `routes`. -/
def routes : List (String × Upstream) :=
  [
    ("/api/v1/auth/me", .user),
    ("/api/v1/auth", .auth),
    ("/api/v1/payments", .payment),
    ("/api/v1/delivery", .rider),
    ("/api/v1/ai", .ai),
    ("/api/v1/voice", .ai),
    ("/api/v1/customer/ai", .ai),
    ("/api/v1/customer/calls", .ai),
    ("/api/v1/customer/faqs", .ai),
    ("/api/v1/admin/calls/ai-outbound", .ai),
    ("/api/v1/admin/products/ai-upload/publish", .storeOps),
    ("/api/v1/admin/products/ai-upload", .ai),
    ("/api/v1/admin/categories/ai-image", .ai),
    ("/api/v1/admin/coupons/ai-suggest", .ai),
    ("/api/v1/admin/chatbot", .ai),
    ("/api/v1/admin/insights", .ai),
    ("/api/v1/admin/returns/ai-assess", .ai),
    ("/api/v1/retailer/ai", .ai),
    ("/api/v1/retailer/products/ai-suggest", .ai),
    ("/api/v1/retailer/products/ai-copy", .ai),
    ("/api/v1/retailer/products/ai-image", .ai),
    ("/api/v1/retailer/banners/ai-copy", .ai),
    ("/api/v1/admin/assortment", .assortment),
    ("/api/v1/admin/pricing", .pricing),
    ("/api/v1/admin/picking", .picking),
    ("/api/v1/admin/routing", .routing),
    ("/api/v1/admin/forecast", .forecast),
    ("/api/v1/admin/coupons", .promotion),
    ("/api/v1/admin/inventory", .inventory),
    ("/api/v1/admin/dashboard", .analytics),
    ("/api/v1/admin/reports", .analytics),
    ("/api/v1/admin/delivery/live", .dispatch),
    ("/api/v1/pricing", .pricing),
    ("/api/v1/assortment", .assortment),
    ("/api/v1/picking", .picking),
    ("/api/v1/routing", .routing),
    ("/api/v1/forecast", .forecast),
    ("/api/v1/retailer/assortment", .assortment),
    ("/api/v1/admin", .storeOps),
    ("/api/v1/retailer", .storeOps),
    ("/api/v1/uploads", .storeOps),
    ("/api/v1/geo", .location),
    ("/api/v1/customer/search", .search),
    ("/api/v1/customer/products", .catalog),
    ("/api/v1/customer/categories", .catalog),
    ("/api/v1/customer/brands", .catalog),
    ("/api/v1/customer/shops", .catalog),
    ("/api/v1/customer/settings", .catalog),
    ("/api/v1/customer/home", .catalog),
    ("/api/v1/customer/payments", .payment),
    ("/api/v1/customer/delivery", .rider),
    ("/api/v1/customer/coupons", .promotion),
    ("/api/v1/customer/cart/coupon", .promotion),
    ("/api/v1/customer/cart", .cart),
    ("/api/v1/customer/checkout", .checkout),
    ("/api/v1/customer/orders", .order),
    ("/api/v1/customer/custom-cakes", .order),
    ("/api/v1/customer/returns", .order),
    ("/api/v1/customer/notifications", .notification),
    ("/api/v1/customer/chats", .support),
    ("/api/v1/customer/addresses", .location),
    ("/api/v1/customer/track", .tracking),
    ("/api/v1/customer", .commerce),
    ("/api/v1", .storeOps),
    ("/seed", .storeOps),
    ("/uploads", .storeOps),
    ("/health", .storeOps)]

/-- The prefixes, as the router reads them. -/
def table : List (List (List Char) × Upstream) := routes.map fun r => (segments r.1, r.2)

/-- The first route that covers the path of a request. -/
def proxied (path : String) : Option (List (List Char) × Upstream) := first table (segments path)

/-- The prefixes that have no prefix of their own in the table. -/
def roots : List (List (List Char)) := ["/api/v1", "/seed", "/uploads", "/health"].map segments

/-- No prefix is one of a later prefix, and every prefix is below a root. -/
theorem table_checked : Specific table ∧ (∀ r ∈ table, ∃ root ∈ roots, root <+: r.1) ∧
    ∀ root ∈ roots, ∃ r ∈ table, r.1 = root := by
  decide +kernel

/-- A request is passed on by the first route that covers its path exactly if no route that covers
it has a longer prefix. -/
theorem proxied_iff (path : String) (r : List (List Char) × Upstream) :
    proxied path = some r ↔ IsLongest table (segments path) r :=
  first_eq_some_iff table_checked.1

/-- The gateway passes on what is below one of the roots, and nothing else. -/
theorem exists_proxied_iff (path : String) :
    (∃ r, proxied path = some r) ↔ ∃ root ∈ roots, root <+: segments path := by
  obtain ⟨hspecific, hbelow, hroots⟩ := table_checked
  constructor
  · rintro ⟨r, hr⟩
    obtain ⟨hmem, hcovers, -⟩ := hspecific.isLongest hr
    obtain ⟨root, hroot, hprefix⟩ := hbelow r hmem
    exact ⟨root, hroot, hprefix.trans hcovers⟩
  · rintro ⟨root, hroot, hprefix⟩
    obtain ⟨r, hr, rfl⟩ := hroots root hroot
    exact exists_first hr hprefix

end Gateway

end SweetCrust
