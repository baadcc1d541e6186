import Acps.Ca.EabBinding
import Acps.Lib.Delimited
import Acps.Lib.Transition

/-!
What becomes of the credentials: they should be consumed by the requests that know their key, and
bind the account that is returned to their agent.
-/

namespace Acps.Ca.Acme

open Aic (Text)
open Registry (EabCredential EabStore Attempt)

structure Entry where
  request : JWSRequest
  before : EabStore
  after : EabStore
  result : Except CaError AcmeAccount

structure Servers where
  db : Db
  store : EabStore
  log : List Entry

inductive Act where
  | generateEabCredential (credential : EabCredential)
  | newAccount (requestData : JWSRequest) (attempts : List Attempt) (env : Env)

section Model

variable (p : Platform)

def serve (s : Servers) : Act → Option Servers
  | .generateEabCredential credential =>
    if (Keyed.find EabCredential.keyId s.store credential.keyId).isSome then none
    else some { s with store := s.store ++ [{ credential with isConsumed := false }] }
  | .newAccount requestData attempts env =>
    let (store, result) := createAccount p s.db s.store requestData attempts env
    some {
      db := match result with
        | .ok (db, _) => db
        | .error _ => s.db
      store := store
      log := s.log ++ [⟨requestData, s.store, store, result.map (·.2)⟩] }

def servers : Transition.System Servers Act := ⟨serve p⟩

/-- The signature of the binding is the HMAC of what it signs under the key of the credential. -/
def CorrectHmac (protectedB64 payloadB64 signatureB64 macKey : Text) : Prop :=
  ∃ key input signature, p.decode macKey = some key ∧
    Aic.encodeAscii (protectedB64 ++ '.' :: payloadB64) = .ok input ∧
    p.decode signatureB64 = some signature ∧ p.hmac key input = signature

def CarriesHmac (request : JWSRequest) (c : EabCredential) : Prop :=
  ∃ payload eabJws protectedB64 payloadB64 signatureB64,
    parsePayload p.toJose request.payload = .ok payload ∧
    payload.get "externalAccountBinding" = some (.obj eabJws) ∧
    eabField p eabJws "protected" = .ok protectedB64 ∧
    eabField p eabJws "payload" = .ok payloadB64 ∧
    eabField p eabJws "signature" = .ok signatureB64 ∧
    CorrectHmac p protectedB64 payloadB64 signatureB64 c.macKey

def Entry.Consumed (e : Entry) (c : EabCredential) : Prop :=
  c ∈ e.before ∧ c.isConsumed = false ∧ ∃ c' ∈ e.after, c'.keyId = c.keyId ∧ c'.isConsumed = true

def Entry.Faithful (e : Entry) : Prop :=
  ∀ c, e.Consumed c → CarriesHmac p e.request c ∧
    ∀ account, e.result = .ok account → account.aic = some c.aic

def EabFaithful (s : Servers) : Prop := ∀ e ∈ s.log, e.Faithful p

def Accepts (db : Db) (jwk : PublicJwk) (payload : JsonObject) (aic : Text) (env : Env) : Prop :=
  (∃ data, accountCreate p jwk payload aic = .ok data) ∧ db.nonces env.nonce = none

/-- A binding that gets as far as its credential, and reaches it, has a correct HMAC; and when its
request is not refused later, an account that has the key already is bound to the same agent. -/
def BindsFaithfully (s : Servers) : Act → Prop
  | .generateEabCredential _ => True
  | .newAccount requestData attempts env =>
    ∀ db jwk payload binding,
      openNewAccount p s.db requestData env.now = .ok (db, .binding jwk payload binding) →
      ∀ c ∈ s.store, c.keyId = binding.keyId → c.isConsumed = false → c.reached attempts = true →
        CarriesHmac p requestData c ∧
        (c.delivered attempts = true → Accepts p db jwk payload c.aic env →
          ∀ account ∈ getAccountByKeyId s.db (p.digest jwk), account.aic = some c.aic)

end Model

section Open

open Fallible (bind_eq_ok require_eq_ok pure_eq_ok ok_bind)

variable {p : Platform} {db db' : Db} {requestData : JWSRequest} {now : Time}

theorem openEabBinding_eq_ok {eabJws : JsonObject} {jwk : PublicJwk} {url : Json} {b : EabBinding}
    (h : openEabBinding p eabJws jwk url = .ok b) :
    eabField p eabJws "protected" = .ok b.protectedB64 ∧
      eabField p eabJws "payload" = .ok b.payloadB64 ∧
      eabField p eabJws "signature" = .ok b.signatureB64 := by
  obtain ⟨protectedB64, hprotected, h⟩ := bind_eq_ok.mp h
  obtain ⟨payloadB64, hpayload, h⟩ := bind_eq_ok.mp h
  obtain ⟨signature, hsignature, h⟩ := bind_eq_ok.mp h
  obtain ⟨⟨header, payload, signatureB64⟩, hparse, h⟩ := bind_eq_ok.mp h
  have hsame : signature = signatureB64 := by
    unfold parseJws at hparse
    split at hparse
    next hsplit =>
      obtain ⟨_, -, hparse⟩ := bind_eq_ok.mp hparse
      obtain ⟨_, -, hparse⟩ := bind_eq_ok.mp hparse
      obtain ⟨-, hrest⟩ := Prod.mk.inj (pure_eq_ok.mp hparse)
      rw [(Delimited.eq_of_splitOn_three hsplit).2.2, (Prod.mk.inj hrest).2]
    next => cases hparse
  dsimp only at h
  split at h
  · obtain ⟨_, -, h⟩ := bind_eq_ok.mp h
    obtain ⟨_, -, h⟩ := bind_eq_ok.mp h
    split at h
    · obtain ⟨_, -, h⟩ := bind_eq_ok.mp h
      obtain ⟨_, -, h⟩ := bind_eq_ok.mp h
      obtain ⟨_, -, h⟩ := bind_eq_ok.mp h
      obtain rfl := pure_eq_ok.mp h
      exact ⟨hprotected, hpayload, hsame ▸ hsignature⟩
    · cases h
  · cases h

theorem openNewAccount_eq_binding {jwk : PublicJwk} {payload : JsonObject} {b : EabBinding}
    (h : openNewAccount p db requestData now = .ok (db', .binding jwk payload b)) :
    (∃ nonces, db' = { db with nonces := nonces }) ∧
      parsePayload p.toJose requestData.payload = .ok payload ∧
      ∃ eabJws, payload.get "externalAccountBinding" = some (.obj eabJws) ∧
        eabField p eabJws "protected" = .ok b.protectedB64 ∧
        eabField p eabJws "payload" = .ok b.payloadB64 ∧
        eabField p eabJws "signature" = .ok b.signatureB64 := by
  obtain ⟨⟨header, parsed, db₁⟩, hparse, h⟩ := bind_eq_ok.mp h
  obtain ⟨hpayload, hdb⟩ := parseRequest_eq_ok hparse
  dsimp only at h
  split at h
  · cases h
  · obtain ⟨key, -, h⟩ := bind_eq_ok.mp h
    split at h
    · split at h
      · cases h
      · obtain ⟨_, -, h⟩ := bind_eq_ok.mp h
        cases h
    · split at h
      next eabJws heab =>
        obtain ⟨_, -, h⟩ := bind_eq_ok.mp h
        obtain ⟨binding, hbinding, h⟩ := bind_eq_ok.mp h
        cases h
        exact ⟨hdb, hpayload, eabJws, heab, openEabBinding_eq_ok hbinding⟩
      next => cases h

theorem carriesHmac_iff {jwk : PublicJwk} {payload : JsonObject} {b : EabBinding}
    (h : openNewAccount p db requestData now = .ok (db', .binding jwk payload b))
    (c : EabCredential) : CarriesHmac p requestData c ↔
      CorrectHmac p b.protectedB64 b.payloadB64 b.signatureB64 c.macKey := by
  obtain ⟨-, hpayload, eabJws, heab, hprotected, hbody, hsignature⟩ := openNewAccount_eq_binding h
  constructor
  · rintro ⟨payload', eabJws', protectedB64, payloadB64, signatureB64, hpayload', heab', hp, hb, hs,
      hcorrect⟩
    obtain rfl := Except.ok.inj (hpayload.symm.trans hpayload')
    obtain rfl := Json.obj.inj (Option.some.inj (heab.symm.trans heab'))
    obtain rfl := Except.ok.inj (hprotected.symm.trans hp)
    obtain rfl := Except.ok.inj (hbody.symm.trans hb)
    obtain rfl := Except.ok.inj (hsignature.symm.trans hs)
    exact hcorrect
  · exact fun hcorrect => ⟨payload, eabJws, _, _, _, hpayload, heab, hprotected, hbody, hsignature,
      hcorrect⟩

theorem closeEabBinding_eq_ok {b : EabBinding} {c : EabCredential} {aic : Text} :
    closeEabBinding p b (some c) = .ok aic ↔
      aic = c.aic ∧ CorrectHmac p b.protectedB64 b.payloadB64 b.signatureB64 c.macKey := by
  have hdecode : ∀ {data : Text} {bytes : Bytes},
      base64urlDecode p.toJose data = .ok bytes ↔ p.decode data = some bytes := by
    intro data bytes
    unfold base64urlDecode
    cases p.decode data <;> simp
  have hascii : ∀ {x : Except Aic.PyError (List UInt8)} {input : Bytes},
      x.mapError (fun _ => CaError.uncaught "UnicodeEncodeError") = .ok input ↔ x = .ok input := by
    intro x input
    cases x <;> simp [Except.mapError]
  constructor
  · intro h
    obtain ⟨key, hkey, h⟩ := bind_eq_ok.mp h
    obtain ⟨input, hinput, h⟩ := bind_eq_ok.mp h
    obtain ⟨signature, hsignature, h⟩ := bind_eq_ok.mp h
    obtain ⟨_, hhmac, h⟩ := bind_eq_ok.mp h
    exact ⟨(pure_eq_ok.mp h).symm, key, input, signature, hdecode.mp hkey, hascii.mp hinput,
      hdecode.mp hsignature, require_eq_ok.mp hhmac⟩
  · rintro ⟨rfl, key, input, signature, hkey, hinput, hsignature, hhmac⟩
    exact bind_eq_ok.mpr ⟨key, hdecode.mpr hkey, bind_eq_ok.mpr ⟨input, hascii.mpr hinput,
      bind_eq_ok.mpr ⟨signature, hdecode.mpr hsignature,
        bind_eq_ok.mpr ⟨(), require_eq_ok.mpr hhmac, rfl⟩⟩⟩⟩

end Open

section Close

open Fallible (bind_eq_ok require_eq_ok pure_eq_ok)

variable {p : Platform} {db db' : Db} {env : Env}

theorem accountCreate_eq_ok {jwk : PublicJwk} {payload : JsonObject} {aic : Text}
    {data : AccountService.AccountCreate} (h : accountCreate p jwk payload aic = .ok data) :
    data.keyId = p.digest jwk ∧ data.aic = some aic := by
  obtain ⟨_, -, h⟩ := bind_eq_ok.mp h
  split at h
  · cases h
  · obtain rfl := pure_eq_ok.mp h
    exact ⟨rfl, rfl⟩

theorem closeNewAccount_bound {jwk : PublicJwk} {payload : JsonObject} {b : EabBinding}
    {c : EabCredential}
    (hcorrect : CorrectHmac p b.protectedB64 b.payloadB64 b.signatureB64 c.macKey) :
    (∀ db' account, closeNewAccount p db jwk payload b (some c) env = .ok (db', account) →
        account.aic = some c.aic) ↔
      (Accepts p db jwk payload c.aic env →
        ∀ account ∈ getAccountByKeyId db (p.digest jwk), account.aic = some c.aic) := by
  constructor
  · rintro h ⟨⟨data, hdata⟩, hnonce⟩ account haccount
    have hcreate : AccountService.createAccount db data env.id = .ok (db, account) := by
      unfold AccountService.createAccount
      rw [(accountCreate_eq_ok hdata).1, show getAccountByKeyId db (p.digest jwk) = some account from
        haccount]
    exact h _ account (bind_eq_ok.mpr ⟨c.aic, closeEabBinding_eq_ok.mpr ⟨rfl, hcorrect⟩,
      bind_eq_ok.mpr ⟨data, hdata, bind_eq_ok.mpr ⟨(db, account), hcreate,
        bind_eq_ok.mpr ⟨_, createAcmeResponse_eq_ok.mpr ⟨hnonce, rfl⟩, rfl⟩⟩⟩⟩)
  · intro h db' account hclose
    obtain ⟨aic, haic, hclose⟩ := bind_eq_ok.mp hclose
    obtain ⟨rfl, -⟩ := closeEabBinding_eq_ok.mp haic
    obtain ⟨data, hdata, hclose⟩ := bind_eq_ok.mp hclose
    obtain ⟨⟨db₁, account₁⟩, hcreate, hclose⟩ := bind_eq_ok.mp hclose
    obtain ⟨db₂, hresponse, hclose⟩ := bind_eq_ok.mp hclose
    obtain ⟨-, rfl⟩ := Prod.mk.inj (pure_eq_ok.mp hclose)
    obtain ⟨hkey, haicData⟩ := accountCreate_eq_ok hdata
    rcases AccountService.createAccount_eq_ok hcreate with ⟨hexisting, rfl⟩ | ⟨-, hnew, -⟩
    · rw [hkey] at hexisting
      exact h ⟨⟨data, hdata⟩, (createAcmeResponse_eq_ok.mp hresponse).1⟩ _ hexisting
    · rw [hnew, haicData]

end Close

section Faithful

variable {p : Platform} {s t : Servers} {e : Entry} {c : EabCredential}

theorem not_consumed_of_same (hunique : Keyed.Unique EabCredential.keyId e.before)
    (hafter : e.after = e.before) : ¬ e.Consumed c := by
  rintro ⟨hc, hlive, c', hc', hkey, hconsumed⟩
  rw [hafter] at hc'
  obtain rfl := hunique.eq_of_key hc' hc hkey
  rw [hlive] at hconsumed
  cases hconsumed

theorem consumed_iff_of_mark (hunique : Keyed.Unique EabCredential.keyId e.before)
    (hc : c ∈ e.before) (hlive : c.isConsumed = false)
    (hafter : e.after = e.before.markConsumed c.keyId) (c' : EabCredential) :
    e.Consumed c' ↔ c' = c := by
  constructor
  · rintro ⟨hc', hlive', d, hd, hkey, hconsumed⟩
    rw [hafter] at hd
    obtain ⟨old, hold, rfl⟩ := Keyed.mem_modify.mp hd
    split at hkey
    next hmarked =>
      exact hunique.eq_of_key hc' hc (hkey.symm.trans hmarked)
    next hother =>
      rw [if_neg hother] at hconsumed
      obtain rfl := hunique.eq_of_key hold hc' hkey
      rw [hlive'] at hconsumed
      cases hconsumed
  · rintro rfl
    refine ⟨hc, hlive, { c' with isConsumed := true }, ?_, rfl, rfl⟩
    rw [hafter]
    exact Keyed.mem_modify.mpr ⟨c', hc, (if_pos rfl).symm⟩

theorem faithful_of_same (hunique : Keyed.Unique EabCredential.keyId e.before)
    (hafter : e.after = e.before) : e.Faithful p :=
  fun _ hc => absurd hc (not_consumed_of_same hunique hafter)

theorem map_snd_eq_ok {x : Except CaError (Db × AcmeAccount)} {account : AcmeAccount} :
    x.map (·.2) = .ok account ↔ ∃ db, x = .ok (db, account) := by
  cases x with
  | error e => simp [Except.map]
  | ok pair =>
    obtain ⟨db, a⟩ := pair
    simp [Except.map]

theorem faithful_iff (hunique : Keyed.Unique EabCredential.keyId s.store)
    (requestData : JWSRequest) (attempts : List Attempt) (env : Env) :
    Entry.Faithful p ⟨requestData, s.store,
        (createAccount p s.db s.store requestData attempts env).1,
        (createAccount p s.db s.store requestData attempts env).2.map (·.2)⟩ ↔
      BindsFaithfully p s (.newAccount requestData attempts env) := by
  cases hopen : openNewAccount p s.db requestData env.now with
  | error e =>
    refine iff_of_true (faithful_of_same hunique ?_) fun db jwk payload b hb => ?_
    · unfold createAccount
      rw [hopen]
    · rw [hopen] at hb
      cases hb
  | ok opened =>
    obtain ⟨db, account | ⟨jwk, payload, b⟩⟩ := opened
    · refine iff_of_true (faithful_of_same hunique ?_) fun db jwk payload b hb => ?_
      · unfold createAccount
        rw [hopen]
      · rw [hopen] at hb
        cases hb
    · have hcreate : createAccount p s.db s.store requestData attempts env =
          ((EabStore.consumeWithRetry b.keyId attempts s.store).1, closeNewAccount p db jwk payload b
            (EabStore.consumeWithRetry b.keyId attempts s.store).2 env) := by
        unfold createAccount
        rw [hopen]
      have hcondition : BindsFaithfully p s (.newAccount requestData attempts env) ↔
          ∀ c ∈ s.store, c.keyId = b.keyId → c.isConsumed = false → c.reached attempts = true →
            CarriesHmac p requestData c ∧
            (c.delivered attempts = true → Accepts p db jwk payload c.aic env →
              ∀ account ∈ getAccountByKeyId s.db (p.digest jwk), account.aic = some c.aic) := by
        constructor
        · exact fun h => h db jwk payload b hopen
        · intro h db' jwk' payload' b' hb
          obtain ⟨rfl, hsame⟩ := Prod.mk.inj (Except.ok.inj (hopen.symm.trans hb))
          obtain ⟨rfl, rfl, rfl⟩ := NewAccount.binding.inj hsame
          exact h
      rw [hcreate, hcondition]
      by_cases hspent : s.store.Spent b.keyId
      · rw [hspent.consumeWithRetry_eq]
        refine iff_of_true (faithful_of_same hunique rfl) fun c hc hkey hlive _ => ?_
        have hconsumed := hspent c ((Keyed.find_eq_some hunique).mpr ⟨hc, hkey⟩)
        rw [hlive] at hconsumed
        cases hconsumed
      · obtain ⟨c, hfind, hlive⟩ : ∃ c, Keyed.find EabCredential.keyId s.store b.keyId = some c ∧
            c.isConsumed = false := by
          simpa [EabStore.Spent] using hspent
        have hc := Keyed.mem_of_find hfind
        have hkey := Keyed.key_of_find hfind
        have honly : ∀ c' ∈ s.store, c'.keyId = b.keyId → c' = c :=
          fun c' hc' hkey' => hunique.eq_of_key hc' hc (hkey'.trans hkey.symm)
        rw [EabStore.consumeWithRetry_live hfind hlive]
        cases hreached : c.reached attempts with
        | false =>
          refine iff_of_true (faithful_of_same hunique rfl) fun c' hc' hkey' _ hreached' => ?_
          rw [honly c' hc' hkey', hreached] at hreached'
          cases hreached'
        | true =>
          rw [← hkey]
          have hconsumed := consumed_iff_of_mark
            (e := ⟨requestData, s.store, s.store.markConsumed c.keyId,
              (closeNewAccount p db jwk payload b
                (if c.delivered attempts then some c else none) env).map (·.2)⟩)
            hunique hc hlive rfl
          have haccounts : getAccountByKeyId db = getAccountByKeyId s.db := by
            obtain ⟨⟨nonces, rfl⟩, -⟩ := openNewAccount_eq_binding hopen
            rfl
          rw [← haccounts]
          constructor
          · intro h c' hc' hkey' hlive' hreached'
            obtain rfl := honly c' hc' (hkey'.trans hkey)
            obtain ⟨hcarries, hbound⟩ := h c' ((hconsumed c').mpr rfl)
            refine ⟨hcarries, fun hdelivered => ?_⟩
            refine (closeNewAccount_bound ((carriesHmac_iff hopen c').mp hcarries)).mp ?_
            intro db' account hclose
            refine hbound account (map_snd_eq_ok.mpr ⟨db', ?_⟩)
            rw [if_pos hdelivered]
            exact hclose
          · intro h c' hc'
            obtain rfl := (hconsumed c').mp hc'
            obtain ⟨hcarries, haccepted⟩ := h c' hc rfl hlive hreached
            refine ⟨hcarries, fun account hresult => ?_⟩
            obtain ⟨db', hclose⟩ := map_snd_eq_ok.mp hresult
            cases hdelivered : c'.delivered attempts with
            | false =>
              rw [hdelivered] at hclose
              cases hclose
            | true =>
              rw [hdelivered] at hclose
              exact (closeNewAccount_bound ((carriesHmac_iff hopen c').mp hcarries)).mpr
                (haccepted hdelivered) db' account hclose

theorem unique_consumeWithRetry (hunique : Keyed.Unique EabCredential.keyId s.store) (keyId : Text)
    (attempts : List Attempt) :
    Keyed.Unique EabCredential.keyId (EabStore.consumeWithRetry keyId attempts s.store).1 := by
  by_cases hspent : s.store.Spent keyId
  · rwa [hspent.consumeWithRetry_eq]
  · obtain ⟨c, hfind, hlive⟩ : ∃ c, Keyed.find EabCredential.keyId s.store keyId = some c ∧
        c.isConsumed = false := by
      simpa [EabStore.Spent] using hspent
    rw [EabStore.consumeWithRetry_live hfind hlive]
    dsimp only
    split
    · exact Keyed.unique_modify (fun _ _ _ => rfl) hunique
    · exact hunique

theorem unique_serve {a : Act} (hunique : Keyed.Unique EabCredential.keyId s.store)
    (h : (servers p).step s a = some t) : Keyed.Unique EabCredential.keyId t.store := by
  change serve p s a = some t at h
  cases a with
  | generateEabCredential credential =>
    unfold serve at h
    dsimp only at h
    split_ifs at h with hfound
    obtain rfl := Option.some.inj h
    refine Keyed.unique_append hunique (Keyed.find_eq_none.mp ?_)
    exact Option.not_isSome_iff_eq_none.mp hfound
  | newAccount requestData attempts env =>
    obtain rfl := Option.some.inj h
    change Keyed.Unique _ (createAccount p s.db s.store requestData attempts env).1
    unfold createAccount
    split
    · exact hunique
    · exact hunique
    · exact unique_consumeWithRetry hunique _ attempts

theorem faithful_step (hunique : Keyed.Unique EabCredential.keyId s.store) {a : Act}
    (h : (servers p).step s a = some t) :
    EabFaithful p t ↔ EabFaithful p s ∧ BindsFaithfully p s a := by
  change serve p s a = some t at h
  cases a with
  | generateEabCredential credential =>
    unfold serve at h
    dsimp only at h
    split_ifs at h
    obtain rfl := Option.some.inj h
    exact (and_iff_left trivial).symm
  | newAccount requestData attempts env =>
    obtain rfl := Option.some.inj h
    rw [← faithful_iff hunique]
    change (∀ e ∈ s.log ++ [_], Entry.Faithful p e) ↔ _
    rw [List.forall_mem_append, List.forall_mem_singleton]
    exact Iff.rfl

theorem eab_faithful_iff {acts : List Act} (hunique : Keyed.Unique EabCredential.keyId s.store)
    (hlog : s.log = []) (h : (servers p).exec s acts = some t) :
    EabFaithful p t ↔ (servers p).Meets (BindsFaithfully p) s acts := by
  rw [(servers p).exec_iff_meets (C := BindsFaithfully p)
    (I := fun s => Keyed.Unique EabCredential.keyId s.store) (P := EabFaithful p)
    (fun _ _ _ hs h => unique_serve hs h) (fun _ _ _ hs h => faithful_step hs h) hunique h]
  refine and_iff_right fun e he => ?_
  rw [hlog] at he
  cases he

end Faithful

/-! One request of a client with an Ed25519 key, and the services it runs against. -/

namespace Sample

def sextet (c : Char) : Option ℕ :=
  if 'A' ≤ c ∧ c ≤ 'Z' then some (c.toNat - 65)
  else if 'a' ≤ c ∧ c ≤ 'z' then some (c.toNat - 71)
  else if '0' ≤ c ∧ c ≤ '9' then some (c.toNat + 4)
  else if c = '-' then some 62
  else if c = '_' then some 63
  else none

def octets : List ℕ → Option Bytes
  | a :: b :: c :: d :: rest =>
    (octets rest).map fun bytes => UInt8.ofNat (a * 4 + b / 16) ::
      UInt8.ofNat (b % 16 * 16 + c / 4) :: UInt8.ofNat (c % 4 * 64 + d) :: bytes
  | [a, b, c] => some [UInt8.ofNat (a * 4 + b / 16), UInt8.ofNat (b % 16 * 16 + c / 4)]
  | [a, b] => some [UInt8.ofNat (a * 4 + b / 16)]
  | [_] => none
  | [] => some []

def decode (data : Text) : Option Bytes := (data.mapM sextet).bind octets

def text (chunks : List String) : Text := chunks.flatMap String.toList

def xB64 : Text := text [
    "2ZLtpv_L", "9zso67Rl", "_aC-EPXb", "HxXdUPyC", "59W5zXwd", "95c"]

def eabProtectedB64 : Text := text [
    "eyJhbGci", "OiJIUzI1", "NiIsImtp", "ZCI6Imsx", "IiwidXJs", "IjoiaHR0", "cDovL2Nh", "L25ldy1h",
    "Y2NvdW50", "In0"]

def eabPayloadB64 : Text := text [
    "eyJrdHki", "OiJPS1Ai", "LCJjcnYi", "OiJFZDI1", "NTE5Iiwi", "eCI6IjJa", "THRwdl9M", "OXpzbzY3",
    "UmxfYUMt", "RVBYYkh4", "WGRVUHlD", "NTlXNXpY", "d2Q5NWMi", "fQ"]

def eabSignatureB64 : Text := text [
    "reK0-", "5x8kRGbM", "CvOpUPvf", "SdOK07wg", "3aHssxkm", "4L-AVQ"]

def request : JWSRequest where
  protectedHeader := text [
    "eyJhbGci", "OiJFZERT", "QSIsIm5v", "bmNlIjoi", "bjEiLCJ1", "cmwiOiJo", "dHRwOi8v", "Y2EvbmV3",
    "LWFjY291", "bnQiLCJq", "d2siOnsi", "a3R5Ijoi", "T0tQIiwi", "Y3J2Ijoi", "RWQyNTUx", "OSIsIngi",
    "OiIyWkx0", "cHZfTDl6", "c282N1Js", "X2FDLUVQ", "WGJIeFhk", "VVB5QzU5", "VzV6WHdk", "OTVjIn19"]
  payload := text [
    "eyJleHRl", "cm5hbEFj", "Y291bnRC", "aW5kaW5n", "Ijp7InBy", "b3RlY3Rl", "ZCI6ImV5", "SmhiR2Np",
    "T2lKSVV6", "STFOaUlz", "SW10cFpD", "STZJbXN4", "SWl3aWRY", "SnNJam9p", "YUhSMGNE", "b3ZMMk5o",
    "TDI1bGR5", "MWhZMk52", "ZFc1MElu", "MCIsInBh", "eWxvYWQi", "OiJleUpy", "ZEhraU9p", "SlBTMUFp",
    "TENKamNu", "WWlPaUpG", "WkRJMU5U", "RTVJaXdp", "ZUNJNklq", "SmFUSFJ3", "ZGw5TU9Y", "cHpielkz",
    "VW14ZllV", "TXRSVkJZ", "WWtoNFdH", "UlZVSGxE", "TlRsWE5Y", "cFlkMlE1", "TldNaWZR", "Iiwic2ln",
    "bmF0dXJl", "IjoicmVL", "MC01eDhr", "UkdiTUN2", "T3BVUHZm", "U2RPSzA3", "d2czYUhz", "c3hrbTRM",
    "LUFWUSJ9", "fQ"]
  signature := text [
    "uO2ONR7n", "2dEa24iz", "i6YPjne5", "ijndmTCP", "e5la3ni-", "o6Yx3OVf", "uDD6wj1y", "3Hq9wZzI",
    "rYCUVpGQ", "pPoKistp", "sA1oBA"]

def jwk : Json :=
  .obj [("kty", .str "OKP"), ("crv", .str "Ed25519"), ("x", .str (String.ofList xB64))]

def url : Json := .str "http://ca/new-account"

def loads (bytes : Bytes) : Option Json :=
  match bytes.length with
  | 144 => some (.obj [("alg", .str "EdDSA"), ("nonce", .str "n1"), ("url", url), ("jwk", jwk)])
  | 295 => some (.obj [("externalAccountBinding", .obj [
      ("protected", .str (String.ofList eabProtectedB64)),
      ("payload", .str (String.ofList eabPayloadB64)),
      ("signature", .str (String.ofList eabSignatureB64))])])
  | 56 => some (.obj [("alg", .str "HS256"), ("kid", .str "k1"), ("url", url)])
  | 79 => some jwk
  | _ => none

def thumbprint : Text := text [
    "6HGQVsEZ", "y0JK4Luq", "GF3r1mgN", "o-fb5R8S", "a2HQgOTF", "rDE"]

def platform : Platform where
  decode := decode
  loads := loads
  digest _ := thumbprint
  verifies _ _ _ _ := true
  hmac key _ :=
    if key = List.replicate 32 0 then
      [173, 226, 180, 251, 156, 124, 145, 17, 155, 48, 43, 206, 165, 67, 239, 125, 39,
        78, 43, 78, 240, 131, 118, 135, 178, 204, 100, 155, 130, 254, 1, 84]
    else
      [76, 44, 97, 82, 223, 170, 113, 144, 35, 213, 3, 192, 93, 255, 232, 115, 69, 238,
        234, 45, 5, 254, 76, 93, 237, 167, 186, 80, 235, 177, 117, 87]
  baseUrl := "http://ca"
  int _ := none
  str _ := []
  boolean
    | .bool b => some b
    | _ => none
  instant _ := true
  upperCase := Aic.asciiUpperCase

def account : AcmeAccount :=
  ⟨1, thumbprint, .okp (String.ofList xB64), .valid, .null, false, some ['a']⟩

def db : Db where
  accounts := [account]
  orders := []
  authorizations := []
  tables := ⟨[], []⟩
  nonces nonce := if nonce = ['n', '1'] then some ⟨false, 10⟩ else none

def credential (macKey aic : Text) : EabCredential := ⟨['k', '1'], macKey, aic, false, 10⟩

def env : Env := ⟨0, ['n', '2'], 2⟩

def macKey : Text := List.replicate 43 'A'

def otherKey : Text := List.replicate 43 'E'

def eab : JsonObject :=
  [("protected", .str (String.ofList eabProtectedB64)),
    ("payload", .str (String.ofList eabPayloadB64)),
    ("signature", .str (String.ofList eabSignatureB64))]

def publicJwk : PublicJwk := .okp (String.ofList xB64)

def binding : EabBinding := ⟨['k', '1'], eabProtectedB64, eabPayloadB64, eabSignatureB64⟩

def header : JsonObject := [("alg", .str "EdDSA"), ("nonce", .str "n1"), ("url", url), ("jwk", jwk)]

def payload : JsonObject := [("externalAccountBinding", .obj eab)]

def used : Db := { db with nonces := Function.update db.nonces ['n', '1'] (some ⟨true, 10⟩) }

theorem evaluated :
    ((decode request.protectedHeader).map List.length = some 144 ∧
      (decode request.payload).map List.length = some 295 ∧
      (decode eabProtectedB64).map List.length = some 56 ∧
      (decode eabPayloadB64).map List.length = some 79 ∧
      (decode request.signature).isSome = true ∧ (decode eabSignatureB64).isSome = true) ∧
    projectPublicJwk platform.toJose jwk = .ok publicJwk ∧
    (closeEabBinding platform binding (some (credential macKey []))).isOk = true ∧
    (closeEabBinding platform binding (some (credential otherKey []))).isOk = false := by
  refine ⟨⟨?_, ?_, ?_, ?_, ?_, ?_⟩, ?_, ?_, ?_⟩
  all_goals
    simp only [request, jwk, publicJwk, binding, xB64, eabProtectedB64, eabPayloadB64,
      eabSignatureB64, text, List.flatMap_cons, List.flatMap_nil]
    repeat rw [String.toList_ofList]
    decide +kernel

theorem ascii_of_sextet {c : Char} (h : (sextet c).isSome = true) : c ≠ '.' ∧ c.toNat < 128 := by
  have hle (d : Char) (hd : c ≤ d) : c.toNat ≤ d.toNat := hd
  unfold sextet at h
  split at h
  next hc => exact ⟨by rintro rfl; revert hc; decide, by have := hle _ hc.2; simp at this; omega⟩
  split at h
  next hc => exact ⟨by rintro rfl; revert hc; decide, by have := hle _ hc.2; simp at this; omega⟩
  split at h
  next hc => exact ⟨by rintro rfl; revert hc; decide, by have := hle _ hc.2; simp at this; omega⟩
  split at h
  next hc => subst hc; decide
  split at h
  next hc => subst hc; decide
  next => cases h

theorem ascii_of_decode {data : Text} (h : (decode data).isSome = true) :
    ∀ c ∈ data, c ≠ '.' ∧ c.toNat < 128 := by
  unfold decode at h
  cases hmap : data.mapM sextet with
  | none =>
    rw [hmap] at h
    cases h
  | some sextets =>
    clear h
    induction data generalizing sextets with
    | nil => exact fun c hc => nomatch hc
    | cons c data ih =>
      rw [List.mapM_cons] at hmap
      obtain ⟨n, hn, hmap⟩ := Option.bind_eq_some_iff.mp hmap
      obtain ⟨ns, hns, -⟩ := Option.bind_eq_some_iff.mp hmap
      rw [List.forall_mem_cons]
      exact ⟨ascii_of_sextet (hn ▸ rfl), ih ns hns⟩

theorem isSome_of_length {data : Text} {n : ℕ} (h : (decode data).map List.length = some n) :
    (decode data).isSome = true := by
  rw [← Option.isSome_map (f := List.length), h]
  rfl

section Documents

variable {data : Text} {n : ℕ}

theorem decoded (h : (decode data).map List.length = some n) :
    ∃ bytes : Bytes, base64urlDecode platform.toJose data = .ok bytes ∧ bytes.length = n := by
  obtain ⟨bytes, hbytes, hlength⟩ := Option.map_eq_some_iff.mp h
  refine ⟨bytes, ?_, hlength⟩
  unfold base64urlDecode
  rw [show platform.toJose.decode data = some bytes from hbytes]

theorem loadsPart_eq {value : Json} (h : (decode data).map List.length = some n)
    (hloads : ∀ bytes : Bytes, bytes.length = n → loads bytes = some value) :
    loadsPart platform.toJose data = .ok value := by
  obtain ⟨bytes, hdecode, hlength⟩ := decoded h
  refine Fallible.bind_eq_ok.mpr ⟨bytes, hdecode, ?_⟩
  rw [show platform.toJose.loads bytes = some value from hloads bytes hlength]
  rfl

theorem parseProtectedHeader_eq {members : JsonObject} (h : (decode data).map List.length = some n)
    (hloads : ∀ bytes : Bytes, bytes.length = n → loads bytes = some (.obj members)) :
    parseProtectedHeader platform.toJose data = .ok members := by
  obtain ⟨bytes, hdecode, hlength⟩ := decoded h
  refine Fallible.bind_eq_ok.mpr ⟨bytes, hdecode, ?_⟩
  rw [show platform.toJose.loads bytes = some (.obj members) from hloads bytes hlength]
  rfl

theorem splitOn_eq {a b c : Text} (ha : '.' ∉ a) (hb : '.' ∉ b) (hc : '.' ∉ c) :
    (a ++ '.' :: b ++ '.' :: c).splitOn '.' = [a, b, c] := by
  have h : (['.'].intercalate [a, b, c]).splitOn '.' = [a, b, c] :=
    List.splitOn_intercalate '.' (by simp [ha, hb, hc]) (by simp)
  simpa [List.intercalate] using h

theorem parseJws_eq {a b c : Text} {value payload : Json} (hne : b ≠ [])
    (hsplit : (a ++ '.' :: b ++ '.' :: c).splitOn '.' = [a, b, c])
    (hvalue : loadsPart platform.toJose a = .ok value)
    (hpayload : loadsPart platform.toJose b = .ok payload) :
    parseJws platform.toJose (a ++ '.' :: b ++ '.' :: c) = .ok (value, payload, c) := by
  unfold parseJws
  rw [hsplit]
  refine Fallible.bind_eq_ok.mpr ⟨value, hvalue, Fallible.bind_eq_ok.mpr ⟨payload, ?_, rfl⟩⟩
  rw [loadsPayload, if_neg hne, hpayload]

theorem verifyJws_eq {j : Jose} {text a b c : Text} {members : JsonObject} {payload : Json}
    {publicKeyJwk : PublicJwk} {alg : String} (hsplit : text.splitOn '.' = [a, b, c])
    (hparse : parseJws j text = .ok (.obj members, payload, c))
    (hheader : verifyProtectedHeader j members publicKeyJwk = .ok alg)
    (hcompact : verifyCompactJwsSignature j a b c publicKeyJwk alg = .ok ()) :
    verifyJws j text publicKeyJwk = .ok () := by
  unfold verifyJws
  rw [hsplit]
  exact Fallible.bind_eq_ok.mpr ⟨_, hparse, Fallible.bind_eq_ok.mpr ⟨alg, hheader, hcompact⟩⟩

theorem loads_header {bytes : Bytes} (h : bytes.length = 144) : loads bytes = some (.obj header) := by
  rw [loads, h]
  rfl

theorem loads_payload {bytes : Bytes} (h : bytes.length = 295) :
    loads bytes = some (.obj payload) := by
  rw [loads, h]
  rfl

theorem parse_header :
    parseProtectedHeader platform.toJose request.protectedHeader = .ok header :=
  parseProtectedHeader_eq evaluated.1.1 fun _ => loads_header

theorem parse_payload : parsePayload platform.toJose request.payload = .ok payload := by
  obtain ⟨bytes, hdecode, hlength⟩ := decoded evaluated.1.2.1
  have hne : request.payload ≠ [] := by
    intro h
    have hlen := evaluated.1.2.1
    rw [h] at hlen
    cases hlen
  unfold parsePayload
  rw [if_neg hne]
  refine Fallible.bind_eq_ok.mpr ⟨bytes, hdecode, ?_⟩
  rw [show platform.toJose.loads bytes = some (.obj payload) from loads_payload hlength]
  rfl

theorem verify_header : verifyProtectedHeader platform.toJose header publicJwk = .ok "EdDSA" := by
  have hmatches : jwkMatches platform.toJose
      [("kty", .str "OKP"), ("crv", .str "Ed25519"), ("x", .str (String.ofList xB64))] publicJwk =
        .ok true :=
    Fallible.bind_eq_ok.mpr ⟨publicJwk, evaluated.2.1, congrArg Except.ok (decide_eq_true rfl)⟩
  have halg : JsonObject.get header "alg" = some (.str "EdDSA") := rfl
  have hjwk : JsonObject.get header "jwk" = some jwk := rfl
  unfold verifyProtectedHeader
  rw [halg]
  dsimp only
  rw [if_neg (by decide +kernel), hjwk]
  exact Fallible.bind_eq_ok.mpr ⟨true, hmatches, rfl⟩

theorem verify_request : verifyJwsSignatureWithJwk platform.toJose request publicJwk
    "Invalid signature for new account" = .ok () := by
  obtain ⟨⟨hheader, hpayload, -, -, hsignature, -⟩, -⟩ := evaluated
  have hascii := ascii_of_decode (isSome_of_length hheader)
  have hascii' := ascii_of_decode (isSome_of_length hpayload)
  have hsplit := splitOn_eq (fun h => (hascii _ h).1 rfl) (fun h => (hascii' _ h).1 rfl)
    (fun h => (ascii_of_decode hsignature _ h).1 rfl)
  have hne : request.payload ≠ [] := by
    intro h
    rw [h] at hpayload
    cases hpayload
  have hparse := parseJws_eq hne hsplit (loadsPart_eq hheader fun _ => loads_header)
    (loadsPart_eq hpayload fun _ => loads_payload)
  have hcompact : verifyCompactJwsSignature platform.toJose request.protectedHeader
      request.payload request.signature publicJwk "EdDSA" = .ok () := by
    obtain ⟨_, hbytes⟩ := Option.isSome_iff_exists.mp hsignature
    obtain ⟨bytes, hdecode, -⟩ := decoded (congrArg (Option.map List.length) hbytes)
    refine Fallible.bind_eq_ok.mpr ⟨bytes, hdecode, Fallible.bind_eq_ok.mpr ⟨(), ?_, rfl⟩⟩
    refine Fallible.require_eq_ok.mpr (List.all_eq_true.mpr fun c hc => decide_eq_true ?_)
    rcases List.mem_append.mp hc with hc | hc
    · exact (hascii c hc).2
    rcases List.mem_cons.mp hc with rfl | hc
    · decide
    · exact (hascii' c hc).2
  rw [verifyJwsSignatureWithJwk, verifyJws_eq hsplit hparse verify_header hcompact]
  rfl

theorem parse_eab : parseJws platform.toJose
    (eabProtectedB64 ++ '.' :: eabPayloadB64 ++ '.' :: eabSignatureB64) =
      .ok (.obj [("alg", .str "HS256"), ("kid", .str "k1"), ("url", url)], jwk, eabSignatureB64) := by
  obtain ⟨⟨-, -, hprotected, hpayload, -, hsignature⟩, -⟩ := evaluated
  apply parseJws_eq
  · intro h
    rw [h] at hpayload
    cases hpayload
  · apply splitOn_eq
    · exact fun h => (ascii_of_decode (isSome_of_length hprotected) _ h).1 rfl
    · exact fun h => (ascii_of_decode (isSome_of_length hpayload) _ h).1 rfl
    · exact fun h => (ascii_of_decode hsignature _ h).1 rfl
  · exact loadsPart_eq hprotected fun bytes h => by rw [loads, h]; rfl
  · exact loadsPart_eq hpayload fun bytes h => by rw [loads, h]; rfl

end Documents

end Sample

section Runs

open Fallible (bind_eq_ok require_eq_ok)
open Acme.Sample

theorem isOk_iff {ε α : Type} {x : Except ε α} : x.isOk = true ↔ ∃ a, x = .ok a := by
  cases x with
  | error e => simp [Except.isOk, Except.toBool]
  | ok a => simp [Except.isOk, Except.toBool]

theorem correctHmac_iff_isOk {b : EabBinding} {c : EabCredential} :
    CorrectHmac platform b.protectedB64 b.payloadB64 b.signatureB64 c.macKey ↔
      (closeEabBinding platform b (some c)).isOk = true := by
  rw [isOk_iff]
  simp only [closeEabBinding_eq_ok, exists_eq_left]

theorem parse_request : parseRequest platform db request "/new-account" 0 =
    .ok (header, payload, used) := by
  unfold parseRequest parseJwsRequest
  rw [parse_header, parse_payload]
  rfl

theorem open_eab : openEabBinding platform eab publicJwk url = .ok binding := by
  refine bind_eq_ok.mpr ⟨eabProtectedB64, congrArg Except.ok String.toList_ofList, ?_⟩
  refine bind_eq_ok.mpr ⟨eabPayloadB64, congrArg Except.ok String.toList_ofList, ?_⟩
  refine bind_eq_ok.mpr ⟨eabSignatureB64, congrArg Except.ok String.toList_ofList, ?_⟩
  refine bind_eq_ok.mpr ⟨_, parse_eab, ?_⟩
  refine bind_eq_ok.mpr ⟨(), require_eq_ok.mpr rfl, ?_⟩
  refine bind_eq_ok.mpr ⟨(), require_eq_ok.mpr rfl, ?_⟩
  refine bind_eq_ok.mpr ⟨(), require_eq_ok.mpr (by decide +kernel), ?_⟩
  exact bind_eq_ok.mpr ⟨publicJwk, evaluated.2.1, bind_eq_ok.mpr ⟨(), require_eq_ok.mpr rfl, rfl⟩⟩

theorem open_request :
    openNewAccount platform db request 0 = .ok (used, .binding publicJwk payload binding) := by
  refine bind_eq_ok.mpr ⟨_, parse_request, ?_⟩
  refine bind_eq_ok.mpr ⟨publicJwk, evaluated.2.1, ?_⟩
  refine bind_eq_ok.mpr ⟨(), verify_request, ?_⟩
  exact bind_eq_ok.mpr ⟨binding, open_eab, rfl⟩

theorem request_opens : ∃ db' jwk payload b,
    openNewAccount platform db request 0 = .ok (db', .binding jwk payload b) ∧
      b.keyId = ['k', '1'] ∧
      (∀ aic, CarriesHmac platform request (credential macKey aic)) ∧
      (∀ aic, ¬ CarriesHmac platform request (credential otherKey aic)) ∧
      Accepts platform db' jwk payload ['b'] env := by
  refine ⟨used, publicJwk, payload, binding, open_request, rfl, fun aic => ?_, fun aic => ?_, ?_⟩
  · have hmac := (correctHmac_iff_isOk (c := credential macKey [])).mpr evaluated.2.2.1
    exact (carriesHmac_iff open_request _).mpr hmac
  · intro h
    have hmac := (carriesHmac_iff open_request _).mp h
    have hclose := (correctHmac_iff_isOk (c := credential otherKey [])).mp hmac
    rw [evaluated.2.2.2] at hclose
    cases hclose
  · exact ⟨⟨_, rfl⟩, rfl⟩

def Sample.start (c : EabCredential) : Servers := ⟨db, [c], []⟩

theorem unique_start (c : EabCredential) : Keyed.Unique EabCredential.keyId (start c).store :=
  List.nodup_singleton _

theorem exec_newAccount (p : Platform) (s : Servers) (requestData : JWSRequest)
    (attempts : List Attempt) (env : Env) :
    ∃ t, (servers p).step s (.newAccount requestData attempts env) = some t ∧
      (servers p).exec s [.newAccount requestData attempts env] = some t := ⟨_, rfl, rfl⟩

theorem eab_faithful_request : ∃ t, (servers platform).exec (start (credential macKey ['a']))
    [.newAccount request [.answered 0] env] = some t ∧ EabFaithful platform t := by
  obtain ⟨t, -, hexec⟩ := exec_newAccount platform (start (credential macKey ['a'])) request
    [.answered 0] env
  refine ⟨t, hexec, (eab_faithful_iff (unique_start _) rfl hexec).mpr ⟨?_, fun _ _ => trivial⟩⟩
  intro db' jwk payload b hopen c hc _ _ _
  obtain rfl := List.mem_singleton.mp hc
  obtain ⟨_, _, _, _, -, -, hcarries, -, -⟩ := request_opens
  refine ⟨hcarries _, fun _ _ account haccount => ?_⟩
  obtain rfl := List.mem_singleton.mp (Keyed.mem_of_find haccount)
  rfl

theorem credential_misused :
    (∃ t, (servers platform).exec (start (credential otherKey ['a']))
      [.newAccount request [.answered 0] env] = some t ∧ ¬ EabFaithful platform t) ∧
    ∃ t, (servers platform).exec (start (credential macKey ['b']))
      [.newAccount request [.answered 0] env] = some t ∧ ¬ EabFaithful platform t := by
  obtain ⟨db', jwk, payload, b, hopen, hkey, -, hwrong, haccepts⟩ := request_opens
  constructor
  · obtain ⟨t, hstep, hexec⟩ := exec_newAccount platform (start (credential otherKey ['a'])) request
      [.answered 0] env
    refine ⟨t, hexec, fun h => ?_⟩
    have hbinds := ((faithful_step (unique_start _) hstep).mp h).2
    exact hwrong ['a'] (hbinds db' jwk payload b hopen _ (List.mem_singleton_self _) hkey.symm rfl
      rfl).1
  · obtain ⟨t, hstep, hexec⟩ := exec_newAccount platform (start (credential macKey ['b'])) request
      [.answered 0] env
    refine ⟨t, hexec, fun h => ?_⟩
    have hbinds := ((faithful_step (unique_start _) hstep).mp h).2
    have hunique : Keyed.Unique AcmeAccount.keyId db.accounts := List.nodup_singleton _
    have hfound : getAccountByKeyId db (platform.digest jwk) = some account :=
      Keyed.find_of_mem hunique (List.mem_singleton_self account)
    have haic := (hbinds db' jwk payload b hopen _ (List.mem_singleton_self _) hkey.symm rfl
      rfl).2 rfl haccepts _ hfound
    exact absurd haic (by decide)

end Runs

end Acps.Ca.Acme
