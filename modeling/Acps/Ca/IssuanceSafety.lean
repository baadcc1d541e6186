import Acps.Ca.EabBinding
import Acps.Ca.Orders

/-!
The ACME service over any sequence of requests: certificates belong to valid orders of accounts that
are bound to their agents, and each order is finalized once at most.
-/

namespace Acps.Ca.Acme

open Aic (Text)
open Registry (EabCredential EabStore Attempt)

structure Server where
  db : Db
  store : EabStore
  finalized : List (Text × Db)

inductive Request where
  | newNonce (env : Env)
  | generateEabCredential (credential : EabCredential)
  | newAccount (requestData : JWSRequest) (attempts : List Attempt) (env : Env)
  | account (accountId : ℕ) (requestData : JWSRequest) (env : Env)
  | newOrder (requestData : JWSRequest) (env : OrderEnv)
  | authorization (authzId : Text) (requestData : JWSRequest) (env : Env)
  | finalize (orderId : Text) (requestData : JWSRequest) (env : FinalizeEnv)
  | keyChange (requestData : JWSRequest) (env : Env)
  | revokeCert (requestData : JWSRequest) (env : Env)

def Server.settle (s : Server) : Except CaError Db → Server
  | .ok db => { s with db := db }
  | .error _ => s

def Server.settleFinalized (s : Server) (orderId : Text) : Except CaError Db → Server
  | .ok db => { s with db := db, finalized := s.finalized ++ [(orderId, s.db)] }
  | .error _ => s

section Model

variable (p : Issuer)

def handle (s : Server) : Request → Server
  | .newNonce env => s.settle (createAcmeResponse s.db env)
  | .generateEabCredential credential => { s with store := s.store ++ [credential] }
  | .newAccount requestData attempts env =>
    let (store, result) := createAccount p.toPlatform s.db s.store requestData attempts env
    { s with store := store }.settle (result.map Prod.fst)
  | .account accountId requestData env =>
    s.settle (updateAccount p.toPlatform s.db accountId requestData env)
  | .newOrder requestData env => s.settle (createOrder p s.db requestData env)
  | .authorization authzId requestData env =>
    s.settle (getAuthorization p s.db authzId requestData env)
  | .finalize orderId requestData env =>
    s.settleFinalized orderId (finalizeOrder p s.db orderId requestData env)
  | .keyChange requestData env => s.settle (changeKey p.toPlatform s.db requestData env)
  | .revokeCert requestData env => s.settle (revokeCertificateRequest p s.db requestData env)

def Server.empty : Server :=
  { db :=
      { accounts := []
        orders := []
        authorizations := []
        tables := ⟨[], []⟩
        nonces := fun _ => none }
    store := []
    finalized := [] }

def run (requests : List Request) : Server := requests.foldl (handle p) Server.empty

end Model

def Entitled (orderId : Text) (db : Db) : Prop :=
  ∃ order ∈ db.orders, order.orderId = orderId ∧
    (∃ account ∈ db.accounts, account.id = order.accountId ∧ account.status ≠ .deactivated) ∧
    ∀ z ∈ db.authorizations, z.orderId = order.id → z.status ≠ .deactivated

structure Safe (p : Platform) (s : Server) : Prop where
  uniqueAccount : Keyed.Unique AcmeAccount.id s.db.accounts
  uniqueOrder : Keyed.Unique AcmeOrder.id s.db.orders
  uniqueOrderId : Keyed.Unique AcmeOrder.orderId s.db.orders
  certificates : ∀ c ∈ s.db.tables.acmeCertificates, ∃ order ∈ s.db.orders,
    order.id = c.orderId ∧ order.status = .valid ∧
      ∃ account ∈ s.db.accounts, account.id = order.accountId ∧ account.aic = some c.aic
  once : (s.finalized.map (·.1)).Nodup
  entitled : ∀ f ∈ s.finalized, Entitled f.1 f.2
  unusable : ∀ protectedHeader account, account.status = .deactivated →
    getAccountFromRequest p s.db protectedHeader ≠ .ok account

structure Keeps (db db' : Db) : Prop where
  accounts : ∀ a ∈ db.accounts, ∃ b ∈ db'.accounts, b.id = a.id ∧ b.aic = a.aic ∧
    (a.status = .deactivated → b.status = .deactivated)
  authorizations : ∀ z ∈ db.authorizations, ∃ y ∈ db'.authorizations,
    y.authzId = z.authzId ∧ y.orderId = z.orderId ∧
      (z.status = .deactivated → y.status = .deactivated)

inductive Change (db db' : Db) : Prop where
  | asks (h : Asks db db')
  | rewrites (h : Rewrites db db')
  | addsAccount (h : AddsAccount db db')
  | makesOrder (h : MakesOrder db db')
  | deactivates (h : Deactivates db db')
  | revokes (h : Revokes db db')

structure Consistent (db : Db) : Prop where
  uniqueAccount : Keyed.Unique AcmeAccount.id db.accounts
  uniqueOrder : Keyed.Unique AcmeOrder.id db.orders
  uniqueOrderId : Keyed.Unique AcmeOrder.orderId db.orders
  uniqueAuthorization : Keyed.Unique AcmeAuthorization.authzId db.authorizations
  orders : ∀ o ∈ db.orders, ∃ a ∈ db.accounts, a.id = o.accountId ∧
    ∀ i ∈ o.identifiers, a.aic = some i.value.1
  authorizations : ∀ z ∈ db.authorizations, ∃ o ∈ db.orders, o.id = z.orderId
  certificates : ∀ c ∈ db.tables.acmeCertificates, ∃ o ∈ db.orders, o.id = c.orderId ∧
    o.status = .valid ∧ ∃ i ∈ o.identifiers, i.value.1 = c.aic
  ready : ∀ o ∈ db.orders, o.status = .ready → ∀ z ∈ db.authorizations, z.orderId = o.id →
    z.status ≠ .deactivated

section Requests

variable {p : Issuer} {s : Server}

theorem Server.settle_cases {result : Except CaError Db}
    (h : ∀ db, result = .ok db → Change s.db db) :
    Change s.db (s.settle result).db ∧ (s.settle result).finalized = s.finalized := by
  cases result with
  | ok db => exact ⟨h db rfl, rfl⟩
  | error e => exact ⟨.asks ⟨rfl, rfl, rfl, rfl⟩, rfl⟩

theorem Server.settleFinalized_cases {orderId : Text} {result : Except CaError Db}
    (h : ∀ db, result = .ok db → Finalizes orderId s.db db) :
    (Change s.db (s.settleFinalized orderId result).db ∧
        (s.settleFinalized orderId result).finalized = s.finalized) ∨
      Finalizes orderId s.db (s.settleFinalized orderId result).db ∧
        (s.settleFinalized orderId result).finalized = s.finalized ++ [(orderId, s.db)] := by
  cases result with
  | ok db => exact .inr ⟨h db rfl, rfl⟩
  | error e => exact .inl ⟨.asks ⟨rfl, rfl, rfl, rfl⟩, rfl⟩

theorem handle_cases (p : Issuer) (s : Server) (request : Request) :
    (Change s.db (handle p s request).db ∧ (handle p s request).finalized = s.finalized) ∨
      ∃ orderId, Finalizes orderId s.db (handle p s request).db ∧
        (handle p s request).finalized = s.finalized ++ [(orderId, s.db)] := by
  cases request with
  | newNonce env =>
    refine .inl (Server.settle_cases fun db h => ?_)
    obtain ⟨-, rfl⟩ := createAcmeResponse_eq_ok.mp h
    exact .asks ⟨rfl, rfl, rfl, rfl⟩
  | generateEabCredential credential => exact .inl ⟨.asks ⟨rfl, rfl, rfl, rfl⟩, rfl⟩
  | newAccount requestData attempts env =>
    let store := (createAccount p.toPlatform s.db s.store requestData attempts env).1
    refine .inl (Server.settle_cases (s := { s with store := store }) fun db h => ?_)
    change (createAccount p.toPlatform s.db s.store requestData attempts env).2.map Prod.fst =
      .ok db at h
    cases hresult : (createAccount p.toPlatform s.db s.store requestData attempts env).2 with
    | error e =>
      rw [hresult] at h
      cases h
    | ok pair =>
      obtain ⟨db', account⟩ := pair
      rw [hresult] at h
      obtain rfl := Except.ok.inj h
      rcases createAccount_eq_ok hresult with hadds | hasks
      · exact .addsAccount hadds
      · exact .asks hasks
  | account accountId requestData env =>
    exact .inl (Server.settle_cases fun db h => .rewrites (updateAccount_eq_ok h))
  | newOrder requestData env =>
    exact .inl (Server.settle_cases fun db h => .makesOrder (createOrder_eq_ok h))
  | authorization authzId requestData env =>
    refine .inl (Server.settle_cases fun db h => ?_)
    rcases getAuthorization_eq_ok h with hdeactivates | hasks
    · exact .deactivates hdeactivates
    · exact .asks hasks
  | finalize orderId requestData env =>
    have hsettled := s.settleFinalized_cases
      fun db (h : finalizeOrder p s.db orderId requestData env = .ok db) => finalizeOrder_eq_ok h
    rcases hsettled with hsame | hdone
    · exact .inl hsame
    · exact .inr ⟨orderId, hdone⟩
  | keyChange requestData env =>
    exact .inl (Server.settle_cases fun db h => .rewrites (changeKey_eq_ok h))
  | revokeCert requestData env =>
    exact .inl (Server.settle_cases fun db h => .revokes (revokeCertificateRequest_eq_ok h))

end Requests

section Rows

variable {db db' : Db}

theorem Keeps.refl (db : Db) : Keeps db db :=
  ⟨fun a ha => ⟨a, ha, rfl, rfl, id⟩, fun z hz => ⟨z, hz, rfl, rfl, id⟩⟩

theorem Keeps.trans {db'' : Db} (h : Keeps db db') (h' : Keeps db' db'') : Keeps db db'' := by
  constructor
  · intro a ha
    obtain ⟨b, hb, hid, haic, hgone⟩ := h.accounts a ha
    obtain ⟨c, hc, hid', haic', hgone'⟩ := h'.accounts b hb
    exact ⟨c, hc, hid'.trans hid, haic'.trans haic, fun ha => hgone' (hgone ha)⟩
  · intro z hz
    obtain ⟨y, hy, hid, horder, hgone⟩ := h.authorizations z hz
    obtain ⟨x, hx, hid', horder', hgone'⟩ := h'.authorizations y hy
    exact ⟨x, hx, hid'.trans hid, horder'.trans horder, fun hz => hgone' (hgone hz)⟩

theorem keeps_of_subset (ha : db.accounts ⊆ db'.accounts)
    (hz : db.authorizations ⊆ db'.authorizations) : Keeps db db' :=
  ⟨fun a h => ⟨a, ha h, rfl, rfl, id⟩, fun z h => ⟨z, hz h, rfl, rfl, id⟩⟩

theorem Rewrites.keeps (hc : Consistent db) (h : Rewrites db db') : Keeps db db' := by
  obtain ⟨account, hmem, hactive, account', hid, haic, haccounts, -, hauthorizations, -⟩ := h
  constructor
  · intro a ha
    rw [haccounts]
    by_cases hsame : a.id = account.id
    · obtain rfl := hc.uniqueAccount.eq_of_key ha hmem hsame
      exact ⟨account', (Keyed.mem_modify_const ha).mpr (.inl rfl), hid, haic,
        fun hgone => absurd hgone hactive⟩
    · exact ⟨a, (Keyed.mem_modify_const hmem).mpr (.inr ⟨ha, hsame⟩), rfl, rfl, id⟩
  · intro z hz
    rw [hauthorizations]
    exact ⟨z, hz, rfl, rfl, id⟩

theorem Deactivates.keeps (h : Deactivates db db') : Keeps db db' := by
  obtain ⟨authorization, -, order, -, -, haccounts, -, hauthorizations, -⟩ := h
  constructor
  · intro a ha
    rw [haccounts]
    exact ⟨a, ha, rfl, rfl, id⟩
  · intro z hz
    rw [hauthorizations]
    refine ⟨_, Keyed.mem_modify.mpr ⟨z, hz, rfl⟩, ?_⟩
    split
    · exact ⟨rfl, rfl, fun _ => rfl⟩
    · exact ⟨rfl, rfl, id⟩

theorem Change.keeps (hc : Consistent db) (h : Change db db') : Keeps db db' := by
  cases h with
  | asks h =>
    obtain ⟨ha, -, hz, -⟩ := h
    exact keeps_of_subset (ha ▸ List.Subset.refl _) (hz ▸ List.Subset.refl _)
  | rewrites h => exact h.keeps hc
  | addsAccount h =>
    obtain ⟨account, -, ha, -, hz, -⟩ := h
    exact keeps_of_subset (ha ▸ List.subset_append_left _ _) (hz ▸ List.Subset.refl _)
  | makesOrder h =>
    obtain ⟨_, -, _, -, -, -, -, -, hauthorizes, ha, -, -⟩ := h
    exact keeps_of_subset (ha ▸ List.Subset.refl _) hauthorizes.kept
  | deactivates h => exact h.keeps
  | revokes h =>
    obtain ⟨-, ha, -, hz⟩ := h
    exact keeps_of_subset (ha ▸ List.Subset.refl _) (hz ▸ List.Subset.refl _)

theorem Finalizes.keeps {orderId : Text} (h : Finalizes orderId db db') : Keeps db db' := by
  obtain ⟨-, -, -, -, -, -, -, -, -, -, -, ha, hz⟩ := h
  exact keeps_of_subset (ha ▸ List.Subset.refl _) (hz ▸ List.Subset.refl _)

theorem Consistent.accountOf (hc : Consistent db) (hk : Keeps db db') {o : AcmeOrder}
    (ho : o ∈ db.orders) : ∃ a ∈ db'.accounts, a.id = o.accountId ∧
      ∀ i ∈ o.identifiers, a.aic = some i.value.1 := by
  obtain ⟨a, ha, hid, haic⟩ := hc.orders o ho
  obtain ⟨b, hb, hid', haic', -⟩ := hk.accounts a ha
  exact ⟨b, hb, hid'.trans hid, fun i hi => haic'.trans (haic i hi)⟩

theorem Consistent.of_accounts (hc : Consistent db) (hk : Keeps db db')
    (hunique : Keyed.Unique AcmeAccount.id db'.accounts) (ho : db'.orders = db.orders)
    (hz : db'.authorizations = db.authorizations)
    (ht : ∀ c ∈ db'.tables.acmeCertificates, ∃ old ∈ db.tables.acmeCertificates,
      c.orderId = old.orderId ∧ c.aic = old.aic) : Consistent db' where
  uniqueAccount := hunique
  uniqueOrder := ho ▸ hc.uniqueOrder
  uniqueOrderId := ho ▸ hc.uniqueOrderId
  uniqueAuthorization := hz ▸ hc.uniqueAuthorization
  orders := by
    rw [ho]
    exact fun o h => hc.accountOf hk h
  authorizations := by
    rw [ho, hz]
    exact hc.authorizations
  certificates := by
    rw [ho]
    intro c h
    obtain ⟨old, hold, horder, haic⟩ := ht c h
    rw [horder, haic]
    exact hc.certificates old hold
  ready := by
    rw [ho, hz]
    exact hc.ready

theorem Rewrites.consistent (hc : Consistent db) (h : Rewrites db db') : Consistent db' := by
  have hk := h.keeps hc
  obtain ⟨account, hmem, -, account', hid, -, ha, ho, hz, ht⟩ := h
  refine hc.of_accounts hk ?_ ho hz (ht ▸ fun c hc => ⟨c, hc, rfl, rfl⟩)
  rw [ha]
  exact Keyed.unique_modify (fun _ _ hkey => hid.trans hkey.symm) hc.uniqueAccount

theorem AddsAccount.consistent (hc : Consistent db) (h : AddsAccount db db') : Consistent db' := by
  have hk := Change.keeps hc (.addsAccount h)
  obtain ⟨account, hfresh, ha, ho, hz, ht⟩ := h
  refine hc.of_accounts hk ?_ ho hz (ht ▸ fun c hc => ⟨c, hc, rfl, rfl⟩)
  rw [ha]
  exact Keyed.unique_append hc.uniqueAccount hfresh

theorem MakesOrder.consistent (hc : Consistent db) (h : MakesOrder db db') : Consistent db' := by
  obtain ⟨account, hmem, order, howner, hready, haic, hid, horderId, hauthorizes, ha, ho, ht⟩ := h
  have hnew : order ∈ db.orders ++ [order] := List.mem_append_right _ (List.mem_singleton_self _)
  have hold : db.orders ⊆ db.orders ++ [order] := List.subset_append_left _ _
  constructor
  · exact ha ▸ hc.uniqueAccount
  · exact ho ▸ Keyed.unique_append hc.uniqueOrder hid
  · exact ho ▸ Keyed.unique_append hc.uniqueOrderId horderId
  · exact hauthorizes.unique hc.uniqueAuthorization
  · intro o h
    rw [ha]
    rcases List.mem_append.mp (ho ▸ h) with h | h
    · exact hc.orders o h
    · obtain rfl := List.mem_singleton.mp h
      exact ⟨account, hmem, howner.symm, haic⟩
  · intro z hz
    rw [ho]
    rcases hauthorizes.old_or_new z hz with hz | ⟨horder, -⟩
    · obtain ⟨o, h, hkey⟩ := hc.authorizations z hz
      exact ⟨o, hold h, hkey⟩
    · exact ⟨order, hnew, horder.symm⟩
  · intro c h
    rw [ho]
    obtain ⟨o, h, hrest⟩ := hc.certificates c (ht ▸ h)
    exact ⟨o, hold h, hrest⟩
  · intro o h hstatus z hz hkey
    rcases hauthorizes.old_or_new z hz with hz | ⟨-, hvalid⟩
    · rcases List.mem_append.mp (ho ▸ h) with h | h
      · exact hc.ready o h hstatus z hz hkey
      · obtain rfl := List.mem_singleton.mp h
        obtain ⟨o', h', hkey'⟩ := hc.authorizations z hz
        exact absurd (hkey'.trans hkey) (hid o' h')
    · rw [hvalid]
      exact fun h => by cases h

structure Restates (order order' : AcmeOrder) : Prop where
  id : order'.id = order.id
  orderId : order'.orderId = order.orderId
  accountId : order'.accountId = order.accountId
  identifiers : order'.identifiers = order.identifiers
  ready : order'.status ≠ .ready

theorem Consistent.of_restated (hc : Consistent db) {order order' : AcmeOrder}
    (hmem : order ∈ db.orders) (hopen : order.status ≠ .valid) (hr : Restates order order')
    (ha : db'.accounts = db.accounts)
    (ho : db'.orders = Keyed.modify AcmeOrder.id db.orders order.id fun _ => order')
    (hunique : Keyed.Unique AcmeAuthorization.authzId db'.authorizations)
    (hz : ∀ z ∈ db'.authorizations, ∃ old ∈ db.authorizations, z.orderId = old.orderId ∧
      (z.orderId ≠ order.id → z.status = old.status))
    (ht : ∀ c ∈ db'.tables.acmeCertificates, c ∈ db.tables.acmeCertificates ∨
      order'.status = .valid ∧ c.orderId = order.id ∧ ∃ i ∈ order.identifiers, i.value.1 = c.aic) :
    Consistent db' := by
  have hmodify : ∀ o, o ∈ db'.orders ↔ o = order' ∨ o ∈ db.orders ∧ o.id ≠ order.id := by
    intro o
    rw [ho]
    exact Keyed.mem_modify_const hmem
  have hnew : order' ∈ db'.orders := (hmodify order').mpr (.inl rfl)
  have hsurvives : ∀ o ∈ db.orders, ∃ o' ∈ db'.orders, o'.id = o.id := by
    intro o h
    by_cases hkey : o.id = order.id
    · exact ⟨order', hnew, hr.id.trans hkey.symm⟩
    · exact ⟨o, (hmodify o).mpr (.inr ⟨h, hkey⟩), rfl⟩
  constructor
  · exact ha ▸ hc.uniqueAccount
  · rw [ho]
    exact Keyed.unique_modify (fun _ _ hkey => hr.id.trans hkey.symm) hc.uniqueOrder
  · rw [ho]
    refine Keyed.unique_modify (fun o h hkey => ?_) hc.uniqueOrderId
    obtain rfl := hc.uniqueOrder.eq_of_key h hmem hkey
    exact hr.orderId
  · exact hunique
  · intro o h
    rw [ha]
    rcases (hmodify o).mp h with rfl | ⟨h, -⟩
    · rw [hr.accountId, hr.identifiers]
      exact hc.orders order hmem
    · exact hc.orders o h
  · intro z h
    obtain ⟨old, hold, horder, -⟩ := hz z h
    obtain ⟨o, hmemo, hkey⟩ := hc.authorizations old hold
    obtain ⟨o', hmemo', hkey'⟩ := hsurvives o hmemo
    exact ⟨o', hmemo', hkey'.trans (hkey.trans horder.symm)⟩
  · intro c h
    rcases ht c h with hold | ⟨hvalid, horder, haic⟩
    · obtain ⟨o, hmemo, hkey, hvalid, haic⟩ := hc.certificates c hold
      -- the order of an old certificate is valid, and so another one
      have hother : o.id ≠ order.id := by
        intro hsame
        obtain rfl := hc.uniqueOrder.eq_of_key hmemo hmem hsame
        exact hopen hvalid
      exact ⟨o, (hmodify o).mpr (.inr ⟨hmemo, hother⟩), hkey, hvalid, haic⟩
    · refine ⟨order', hnew, hr.id.trans horder.symm, hvalid, ?_⟩
      rw [hr.identifiers]
      exact haic
  · intro o h hready z hmemz hkey
    rcases (hmodify o).mp h with rfl | ⟨h, hother⟩
    · exact absurd hready hr.ready
    · obtain ⟨old, hold, horder, hstatus⟩ := hz z hmemz
      rw [hstatus fun hsame => hother (hkey.symm.trans hsame)]
      exact hc.ready o h hready old hold (horder.symm.trans hkey)

theorem mem_deactivate {zs : List AcmeAuthorization}
    (hu : Keyed.Unique AcmeAuthorization.authzId zs)
    {authorization z : AcmeAuthorization} (hmem : authorization ∈ zs)
    (h : z ∈ Keyed.modify AcmeAuthorization.authzId zs authorization.authzId
      fun authorization => { authorization with status := .deactivated }) :
    ∃ old ∈ zs, z.orderId = old.orderId ∧
      (z.orderId ≠ authorization.orderId → z.status = old.status) := by
  obtain ⟨old, hold, rfl⟩ := Keyed.mem_modify.mp h
  refine ⟨old, hold, ?_⟩
  split
  next hkey =>
    obtain rfl := hu.eq_of_key hold hmem hkey
    exact ⟨rfl, fun hother => absurd rfl hother⟩
  next => exact ⟨rfl, fun _ => rfl⟩

theorem Deactivates.consistent (hc : Consistent db) (h : Deactivates db db') : Consistent db' := by
  obtain ⟨authorization, hmemz, order, hmem, hkey, ha, ht, hz, ho⟩ := h
  have hunique : Keyed.Unique AcmeAuthorization.authzId db'.authorizations := by
    rw [hz]
    exact Keyed.unique_modify (fun _ _ _ => rfl) hc.uniqueAuthorization
  have hold : ∀ z ∈ db'.authorizations, ∃ old ∈ db.authorizations, z.orderId = old.orderId ∧
      (z.orderId ≠ order.id → z.status = old.status) := by
    rw [hkey, hz]
    exact fun z h => mem_deactivate hc.uniqueAuthorization hmemz h
  by_cases hopen : order.status.Open
  · rw [if_pos hopen] at ho
    have hinvalid : order.status ≠ .valid := by
      intro hvalid
      rw [hvalid] at hopen
      exact absurd hopen (by decide)
    have hr : Restates order { order with status := .invalid } :=
      ⟨rfl, rfl, rfl, rfl, fun h => by cases h⟩
    exact hc.of_restated hmem hinvalid hr ha ho hunique hold fun c h => .inl (ht ▸ h)
  · -- the order is closed, so no order that is ready loses an authorization
    rw [if_neg hopen] at ho
    constructor
    · exact ha ▸ hc.uniqueAccount
    · exact ho ▸ hc.uniqueOrder
    · exact ho ▸ hc.uniqueOrderId
    · exact hunique
    · rw [ha, ho]
      exact hc.orders
    · intro z h
      rw [ho]
      obtain ⟨old, hold, horder, -⟩ := hold z h
      rw [horder]
      exact hc.authorizations old hold
    · rw [ho, ht]
      exact hc.certificates
    · intro o h hready z h' hkey'
      rw [ho] at h
      obtain ⟨old, hold, horder, hstatus⟩ := hold z h'
      have hother : z.orderId ≠ order.id := by
        intro hsame
        obtain rfl := hc.uniqueOrder.eq_of_key h hmem (hkey'.symm.trans hsame)
        rw [hready] at hopen
        exact hopen (by decide)
      rw [hstatus hother]
      exact hc.ready o h hready old hold (horder.symm.trans hkey')

theorem Finalizes.consistent {orderId : Text} (hc : Consistent db)
    (h : Finalizes orderId db db') : Consistent db' := by
  obtain ⟨account, -, -, order, hmem, -, -, hready, certificate, ho, hissues, ha, hz⟩ := h
  have hopen : order.status ≠ .valid := by
    rw [hready]
    decide
  have hr : Restates order { order with status := .valid, certificate := certificate } :=
    ⟨rfl, rfl, rfl, rfl, fun h => by cases h⟩
  refine hc.of_restated hmem hopen hr ha ho (hz ▸ hc.uniqueAuthorization)
    (hz ▸ fun z h => ⟨z, h, rfl, fun _ => rfl⟩) fun c h => ?_
  rcases hissues c h with hold | ⟨horder, agent, hagent, haic⟩
  · exact .inl hold
  · obtain ⟨i, hi, rfl⟩ := List.mem_map.mp hagent
    exact .inr ⟨rfl, horder, i, hi, haic⟩

theorem Change.consistent (hc : Consistent db) (h : Change db db') : Consistent db' := by
  have hk := h.keeps hc
  cases h with
  | asks h =>
    obtain ⟨ha, ho, hz, ht⟩ := h
    exact hc.of_accounts hk (ha ▸ hc.uniqueAccount) ho hz (ht ▸ fun c hc => ⟨c, hc, rfl, rfl⟩)
  | rewrites h => exact h.consistent hc
  | addsAccount h => exact h.consistent hc
  | makesOrder h => exact h.consistent hc
  | deactivates h => exact h.consistent hc
  | revokes h =>
    obtain ⟨ht, ha, ho, hz⟩ := h
    exact hc.of_accounts hk (ha ▸ hc.uniqueAccount) ho hz ht

theorem Change.keeps_valid (hc : Consistent db) (h : Change db db') {o : AcmeOrder}
    (ho : o ∈ db.orders) (hvalid : o.status = .valid) : o ∈ db'.orders := by
  cases h with
  | asks h => exact h.2.1 ▸ ho
  | rewrites h =>
    obtain ⟨_, -, -, _, -, -, -, horders, -⟩ := h
    exact horders ▸ ho
  | addsAccount h =>
    obtain ⟨_, -, -, horders, -⟩ := h
    exact horders ▸ ho
  | makesOrder h =>
    obtain ⟨_, -, _, -, -, -, -, -, -, -, horders, -⟩ := h
    exact horders ▸ List.mem_append_left _ ho
  | deactivates h =>
    obtain ⟨_, -, order, hmem, -, -, -, -, horders⟩ := h
    split at horders
    next hopen =>
      rw [horders]
      refine (Keyed.mem_modify_const hmem).mpr (.inr ⟨ho, fun hsame => ?_⟩)
      obtain rfl := hc.uniqueOrder.eq_of_key ho hmem hsame
      rw [hvalid] at hopen
      exact absurd hopen (by decide)
    next => exact horders ▸ ho
  | revokes h => exact h.2.2.1 ▸ ho

theorem Finalizes.orders {orderId : Text} (hc : Consistent db) (h : Finalizes orderId db db') :
    (∃ order ∈ db.orders, order.orderId = orderId ∧ order.status = .ready) ∧
      (∃ order ∈ db'.orders, order.orderId = orderId ∧ order.status = .valid) ∧
      ∀ o ∈ db.orders, o.status = .valid → o ∈ db'.orders := by
  obtain ⟨_, -, -, order, hmem, horderId, -, hready, certificate, ho, -, -, -⟩ := h
  refine ⟨⟨order, hmem, horderId, hready⟩, ?_, fun o h hvalid => ?_⟩
  · rw [ho]
    exact ⟨_, (Keyed.mem_modify_const hmem).mpr (.inl rfl), horderId, rfl⟩
  · rw [ho]
    refine (Keyed.mem_modify_const hmem).mpr (.inr ⟨h, fun hsame => ?_⟩)
    obtain rfl := hc.uniqueOrder.eq_of_key h hmem hsame
    rw [hready] at hvalid
    cases hvalid

theorem Finalizes.entitled {orderId : Text} (hc : Consistent db) (h : Finalizes orderId db db') :
    Entitled orderId db := by
  obtain ⟨account, hmem, hactive, order, horder, horderId, howner, hready, -⟩ := h
  exact ⟨order, horder, horderId, ⟨account, hmem, howner.symm, hactive⟩,
    hc.ready order horder hready⟩

end Rows

section Runs

variable {s : Server}

structure Sound (s : Server) : Prop where
  consistent : Consistent s.db
  valid : ∀ f ∈ s.finalized, ∃ o ∈ s.db.orders, o.orderId = f.1 ∧ o.status = .valid
  once : (s.finalized.map (·.1)).Nodup
  entitled : ∀ f ∈ s.finalized, Entitled f.1 f.2

theorem sound_empty : Sound Server.empty where
  consistent :=
    { uniqueAccount := List.nodup_nil
      uniqueOrder := List.nodup_nil
      uniqueOrderId := List.nodup_nil
      uniqueAuthorization := List.nodup_nil
      orders := List.forall_mem_nil _
      authorizations := List.forall_mem_nil _
      certificates := List.forall_mem_nil _
      ready := List.forall_mem_nil _ }
  valid := List.forall_mem_nil _
  once := List.nodup_nil
  entitled := List.forall_mem_nil _

theorem Sound.of_change (h : Sound s) {s' : Server} (hchange : Change s.db s'.db)
    (hfinalized : s'.finalized = s.finalized) : Sound s' := by
  refine ⟨hchange.consistent h.consistent, ?_, ?_, ?_⟩
  · intro f hf
    obtain ⟨o, ho, horderId, hvalid⟩ := h.valid f (hfinalized ▸ hf)
    exact ⟨o, hchange.keeps_valid h.consistent ho hvalid, horderId, hvalid⟩
  · exact hfinalized ▸ h.once
  · exact hfinalized ▸ h.entitled

theorem Sound.of_finalizes (h : Sound s) {s' : Server} {orderId : Text}
    (hdone : Finalizes orderId s.db s'.db)
    (hfinalized : s'.finalized = s.finalized ++ [(orderId, s.db)]) : Sound s' := by
  obtain ⟨⟨order, hmem, horderId, hready⟩, hnew, hkept⟩ := hdone.orders h.consistent
  refine ⟨hdone.consistent h.consistent, ?_, ?_, ?_⟩
  · rw [hfinalized]
    refine List.forall_mem_append.mpr ⟨fun f hf => ?_, List.forall_mem_singleton.mpr hnew⟩
    obtain ⟨o, ho, hid, hvalid⟩ := h.valid f hf
    exact ⟨o, hkept o ho hvalid, hid, hvalid⟩
  · rw [hfinalized, List.map_append, List.map_singleton, List.nodup_append]
    refine ⟨h.once, List.nodup_singleton _, fun k hk k' hk' => ?_⟩
    rintro rfl
    obtain ⟨f, hf, rfl⟩ := List.mem_map.mp hk
    obtain ⟨o, ho, hid, hvalid⟩ := h.valid f hf
    have hsame := h.consistent.uniqueOrderId.eq_of_key ho hmem
      (hid.trans ((List.mem_singleton.mp hk').trans horderId.symm))
    rw [hsame, hready] at hvalid
    cases hvalid
  · rw [hfinalized]
    exact List.forall_mem_append.mpr
      ⟨h.entitled, List.forall_mem_singleton.mpr (hdone.entitled h.consistent)⟩

variable (p : Issuer)

theorem handle_sound (request : Request) (h : Sound s) : Sound (handle p s request) := by
  rcases handle_cases p s request with ⟨hchange, hfinalized⟩ | ⟨orderId, hdone, hfinalized⟩
  · exact h.of_change hchange hfinalized
  · exact h.of_finalizes hdone hfinalized

theorem handle_keeps (request : Request) (h : Sound s) : Keeps s.db (handle p s request).db := by
  rcases handle_cases p s request with ⟨hchange, -⟩ | ⟨orderId, hdone, -⟩
  · exact hchange.keeps h.consistent
  · exact hdone.keeps

theorem foldl_sound_keeps (requests : List Request) (h : Sound s) :
    Sound (requests.foldl (handle p) s) ∧ Keeps s.db (requests.foldl (handle p) s).db := by
  induction requests generalizing s with
  | nil => exact ⟨h, Keeps.refl _⟩
  | cons request requests ih =>
    obtain ⟨hsound, hkeeps⟩ := ih (handle_sound p request h)
    exact ⟨hsound, (handle_keeps p request h).trans hkeeps⟩

theorem run_append (requests later : List Request) :
    run p (requests ++ later) = later.foldl (handle p) (run p requests) := List.foldl_append

theorem run_sound (requests : List Request) : Sound (run p requests) :=
  (foldl_sound_keeps p requests sound_empty).1

variable {p}

theorem Sound.safe (h : Sound s) (p : Platform) : Safe p s where
  uniqueAccount := h.consistent.uniqueAccount
  uniqueOrder := h.consistent.uniqueOrder
  uniqueOrderId := h.consistent.uniqueOrderId
  certificates := by
    intro c hmem
    obtain ⟨o, ho, hid, hvalid, i, hi, haic⟩ := h.consistent.certificates c hmem
    obtain ⟨a, ha, howner, hbound⟩ := h.consistent.orders o ho
    exact ⟨o, ho, hid, hvalid, a, ha, howner, haic ▸ hbound i hi⟩
  once := h.once
  entitled := h.entitled
  unusable := fun _ _ hgone hok => (getAccountFromRequest_eq_ok hok).2 hgone

end Runs

theorem issuance_safe (p : Issuer) (requests later : List Request) :
    Safe p.toPlatform (run p requests) ∧
      Keeps (run p requests).db (run p (requests ++ later)).db := by
  have hsound := run_sound p requests
  rw [run_append]
  exact ⟨hsound.safe p.toPlatform, (foldl_sound_keeps p later hsound).2⟩

end Acps.Ca.Acme
