import SweetCrust.Lib.Guard
import SweetCrust.Lib.Table
import SweetCrust.Lib.Rounding
import SweetCrust.Lib.Decimal
import SweetCrust.Lib.Runs
import SweetCrust.Lib.Session
import SweetCrust.Data.Rows
import SweetCrust.Payment.Payments
import SweetCrust.Payment.Effects
import SweetCrust.Payment.Confluence
import SweetCrust.Payment.Settled
import SweetCrust.Payment.Binding
import SweetCrust.Lib.Interleave
import SweetCrust.StoreOps.Credit
import SweetCrust.StoreOps.Khata
import SweetCrust.StoreOps.Integrations
import SweetCrust.StoreOps.PayRules
import SweetCrust.StoreOps.Purchases
import SweetCrust.StoreOps.PurchaseSteps
import SweetCrust.StoreOps.PurchaseLifecycle
import SweetCrust.StoreOps.PurchasePayable
import SweetCrust.StoreOps.Races
import SweetCrust.StoreOps.SettlementNotes
import SweetCrust.StoreOps.PurchaseSettlement
import SweetCrust.Cart.Carts
import SweetCrust.Checkout.Checkout
import SweetCrust.Checkout.Stock
import SweetCrust.Cart.Requests
import SweetCrust.Checkout.Overlap
import SweetCrust.Sell.Shop
import SweetCrust.Orders.OrderService
import SweetCrust.Orders.StoreOps
import SweetCrust.Orders.Rider
import SweetCrust.Orders.World
import SweetCrust.Orders.Finality
import SweetCrust.Orders.Offers
import SweetCrust.Cart.Promotion
import SweetCrust.Checkout.Money
import SweetCrust.Checkout.Shopping
import SweetCrust.Checkout.SingleShop
import SweetCrust.Checkout.AllOrNothing
import SweetCrust.Checkout.CouponTerms
import SweetCrust.Sell.Subscription
import SweetCrust.Sell.PaidLinks
import SweetCrust.Sell.PlanTime
import SweetCrust.Shops.Hours
import SweetCrust.Shops.DayLists
import SweetCrust.Lib.Merge
import SweetCrust.Checkout.Choices
import SweetCrust.StoreOps.Refunds
import SweetCrust.Catalog.Products
import SweetCrust.Catalog.Requests
import SweetCrust.Catalog.Store
import SweetCrust.Checkout.Published
import SweetCrust.Checkout.Prices
import SweetCrust.Catalog.Movements
import SweetCrust.Catalog.StockStatus
import SweetCrust.Orders.Updates
import SweetCrust.Orders.Spending
import SweetCrust.Payment.Agreement
import SweetCrust.Orders.Beside
import SweetCrust.Orders.Timeline
import SweetCrust.Orders.Coherence
import SweetCrust.StoreOps.Invoices
import SweetCrust.StoreOps.SettlementInvoices
import SweetCrust.Lib.Spread
import SweetCrust.StoreOps.BulkOrders
import SweetCrust.StoreOps.CreditDues
import SweetCrust.StoreOps.Instalments
import SweetCrust.Cart.Quotes
import SweetCrust.Orders.Returns
import SweetCrust.Cart.Engagement
import SweetCrust.Cart.Referrals
import SweetCrust.Lib.Touch
import SweetCrust.Realtime.Presence
import SweetCrust.Auth.Revocation
import SweetCrust.Auth.Ephemeral
import SweetCrust.Chat.Conversations
import SweetCrust.Chat.Unread
import SweetCrust.Chat.AiChat
import SweetCrust.Chat.Guarded
import SweetCrust.Chat.Handover
import SweetCrust.Auth.SignIn
import SweetCrust.Auth.Otp
import SweetCrust.Auth.Gate
import SweetCrust.Catalog.Ratings
import SweetCrust.Catalog.Costs
import SweetCrust.StoreOps.Billing
import SweetCrust.Catalog.Viewed
import SweetCrust.Chat.Calls
import SweetCrust.StoreOps.BulkRefusal
import SweetCrust.Lib.Greedy
import SweetCrust.Routing.Route
import SweetCrust.StoreOps.Phone
import SweetCrust.StoreOps.Riders
import SweetCrust.Auth.Accounts
import SweetCrust.Lib.Calendar
import SweetCrust.Lib.Tiling
import SweetCrust.StoreOps.Analytics
import SweetCrust.Orders.ReorderWhole
import SweetCrust.Lib.Grouping
import SweetCrust.StoreOps.History
import SweetCrust.Lib.RunningTotal
import SweetCrust.StoreOps.Reports
import SweetCrust.Catalog.Categories
import SweetCrust.Catalog.Slugs
import SweetCrust.Lib.Paging
import SweetCrust.Catalog.Listing
import SweetCrust.Redis.Lock
import SweetCrust.Redis.RateLimit
import SweetCrust.Auth.GoogleState
import SweetCrust.StoreOps.PendingTags
import SweetCrust.Lib.Rooms
import SweetCrust.Realtime.Fanout
import SweetCrust.Auth.Jwt
import SweetCrust.Catalog.Cache
import SweetCrust.Chat.RunLog
import SweetCrust.Orders.Billing
import SweetCrust.Sell.Tenants
import SweetCrust.Auth.Rotation
import SweetCrust.Lib.Since
import SweetCrust.Shops.Directory
import SweetCrust.Chat.Agent
import SweetCrust.Lib.Paired
import SweetCrust.Chat.Confined
import SweetCrust.Gateway.Proxy
import SweetCrust.Orders.Live
