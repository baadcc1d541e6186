import Acps.Account.CodeChecks

/-!
A code authorises one action on the contact it was sent to, exactly along the runs whose committed
requests stay clear of the ways around the check.
-/

namespace Acps.Account

open ReadCommitted LikePattern

def Write.binds : Write → List Contact
  | .insertUser _ email phone _ => email.toList.map .email ++ phone.toList.map .phone
  | .setEmail _ email => [.email email]
  | .setPhone _ phone => [.phone phone]
  | _ => []

def Request.byCode : Request → List Contact
  | .authenticateByPhone phone _ | .resetPassword phone _ _ => [.phone phone]
  | .updateUserPasswordByCode email _ _ => [.email email]
  | _ => []

def Changes.contacts (c : Changes) : List Contact := c.request.byCode ++ c.writes.flatMap Write.binds

section Honoured

variable (P : Platform)

def Platform.SameLetters (code issued : Code) : Prop :=
  P.lower code = P.sqlLower issued ∨ P.sqlLower code = P.sqlLower issued

def Issue.PresentedBy (i : Issue) (r : Request) : Prop :=
  ∃ code ∈ r.code, match i.contact with
    | .phone _ => code = i.code
    | .email _ => P.SameLetters code i.code

def Changes.Authorised (issued : List Issue) (c : Changes) : Prop :=
  ∀ contact ∈ c.contacts, ∃ a ∈ c.accepted, a.issue ∈ issued ∧ a.issue.contact = contact ∧
    a.issue.PresentedBy P c.request ∧ a.time ≤ a.issue.expiresAt

structure Tables.Honoured (t : Tables) : Prop where
  authorised : ∀ c ∈ t.committed, c.Authorised P t.issued
  once : (t.committed.filterMap Changes.issue).Nodup

end Honoured

def Write.setsPhone : Write → Bool
  | .setPhone _ _ => true
  | _ => false

/-- A registration gives no email, and no phone number without a code for it; a profile update
changes no phone number; and the code to an email is plain text. -/
def Changes.Proper (c : Changes) : Prop :=
  match c.request with
  | .registerUser payload => payload.email = none ∧ (payload.phone = none ∨ payload.withCode)
  | .updateUser _ _ => ∀ w ∈ c.writes, w.setsPhone = false
  | .updateUserPasswordByCode _ code _ => Plain code
  | _ => True

/-- Since the transaction began nothing has committed with the code it was let through with, and
no profile update ever has. -/
def Changes.Alone (c : Changes) (t : Tables) : Prop :=
  ∀ i ∈ c.issue, (∀ e ∈ t.committed.drop c.since, i ∉ e.issue) ∧
    ∀ e ∈ t.committed, e.request.isProfileUpdate → i ∉ e.issue

def committing : Txn → Option Changes
  | .commit c => some c
  | _ => none

def pending (s : State Nat Tables Changes) (i : Nat) : Option Changes :=
  (s.running i).bind committing

def Careful (s : State Nat Tables Changes) : Action Nat Request → Prop
  | .next i => ∀ c ∈ pending s i, (c.apply s.store).isSome → c.Proper ∧ c.Alone s.store
  | _ => True

section Authorised

variable {P : Platform} {issued : List Issue} {c : Changes} {a : Accepted}

theorem presentedBy_phone {i : Issue} {r : Request} {phone : String}
    (hcontact : i.contact = .phone phone) (h : r.code = some i.code) : i.PresentedBy P r := by
  refine ⟨i.code, h, ?_⟩
  rw [hcontact]

theorem presentedBy_email {i : Issue} {r : Request} {email : String} {code : Code}
    (hcontact : i.contact = .email email) (h : r.code = some code) :
    i.PresentedBy P r ↔ P.SameLetters code i.code := by
  unfold Issue.PresentedBy
  rw [h, hcontact]
  simp

theorem not_authorised (haccepted : c.accepted = none) :
    c.Authorised P issued ↔ c.contacts = [] := by
  unfold Changes.Authorised
  rw [haccepted]
  simp [List.eq_nil_iff_forall_not_mem]

theorem authorised_iff_forall (haccepted : c.accepted = some a) (ha : a.Checked issued)
    (h : a.issue.PresentedBy P c.request) :
    c.Authorised P issued ↔ ∀ contact ∈ c.contacts, contact = a.issue.contact := by
  unfold Changes.Authorised
  rw [haccepted]
  constructor
  · intro h contact hcontact
    obtain ⟨b, hb, -, hb', -⟩ := h contact hcontact
    cases hb
    exact hb'.symm
  · intro hall contact hcontact
    exact ⟨a, rfl, ha.1, (hall contact hcontact).symm, h, ha.2⟩

theorem sameLetters_iff {code issued : Code} (hissued : Plain issued)
    (h : P.ilike code issued = true) : P.SameLetters code issued ↔ Plain code := by
  have hplain : Plain (P.sqlLower issued) := (P.plain_sqlLower issued).mpr hissued
  constructor
  · rintro (hcode | hcode)
    · rw [← hcode] at hplain
      exact (P.plain_lower code).mp hplain
    · rw [← hcode] at hplain
      exact (P.plain_sqlLower code).mp hplain
  · intro hcode
    exact .inr ((like_plain ((P.plain_sqlLower code).mpr hcode)).mp h)

theorem flatMap_binds_updates (userData : UserUpdate) (user : User) :
    (userData.writes user).flatMap Write.binds =
      ((userData.phone.filter fun p => user.phone ≠ some p).map Contact.phone).toList ++
        (((userData.email.map EmailStr.val).filter fun e => user.email ≠ some e).map
          Contact.email).toList := by
  unfold UserUpdate.writes
  rw [List.flatMap_append]
  congr 1
  · cases userData.phone.filter fun p => user.phone ≠ some p with
    | none => rfl
    | some phone => rfl
  · cases (userData.email.map EmailStr.val).filter fun e => user.email ≠ some e with
    | none => rfl
    | some email => rfl

theorem setsPhone_updates (userData : UserUpdate) (user : User) :
    (∀ w ∈ userData.writes user, w.setsPhone = false) ↔
      userData.phone.filter (fun p => user.phone ≠ some p) = none := by
  unfold UserUpdate.writes
  cases userData.phone.filter fun p => user.phone ≠ some p with
  | some phone => simp [Write.setsPhone]
  | none =>
    refine iff_of_true (fun w hw => ?_) rfl
    rcases List.mem_append.mp hw with hw | hw
    · cases hw
    · obtain ⟨email, -, rfl⟩ := Option.map_eq_some_iff.mp (Option.mem_toList.mp hw)
      rfl

theorem binds_user (payload : RegisterRequest) :
    (payload.user P).binds = payload.email.toList.map (fun e => Contact.email e.val) ++
      payload.phone.toList.map Contact.phone := by
  obtain ⟨username, password, phone, verifyCode, email⟩ := payload
  cases email with
  | none => rfl
  | some email => rfl

theorem authorised_iff (h : Settled P c.request c.accepted c.writes)
    (ha : ∀ a ∈ c.accepted, a.Checked issued) : c.Authorised P issued ↔ c.Proper := by
  obtain ⟨request, since, accepted, ws⟩ := c
  cases h with
  | insertedCode | renewedCode | sentCode =>
    exact (not_authorised rfl).trans (iff_of_true rfl trivial)
  | @registered payload h =>
    refine (not_authorised rfl).trans ?_
    change _ ↔ payload.email = none ∧ (payload.phone = none ∨ payload.withCode = true)
    rw [h]
    simp [Changes.contacts, Request.byCode, binds_user]
  | @registeredByCode payload phone code a hphone hcode hcontact h =>
    have hpresented : a.issue.PresentedBy P (.registerUser payload) :=
      presentedBy_phone hcontact (by rw [h]; exact givenCode_eq_some hcode)
    have hwith : payload.withCode = true := by
      unfold RegisterRequest.withCode
      rw [hphone, hcode]
      rfl
    refine (authorised_iff_forall rfl (ha a rfl) hpresented).trans ?_
    change (∀ contact ∈ (payload.user P).binds ++ [], _) ↔
      payload.email = none ∧ (payload.phone = none ∨ payload.withCode = true)
    rw [List.append_nil, binds_user, hcontact, hwith, given_eq_some hphone]
    cases payload.email with
    | none => simp
    | some email => simp
  | @loggedIn phone a hcontact =>
    rw [authorised_iff_forall rfl (ha a rfl) (presentedBy_phone hcontact rfl), hcontact]
    exact iff_of_true (by simp [Changes.contacts, Request.byCode, Write.binds]) trivial
  | @reset phone newPassword hashed a userId hcontact =>
    rw [authorised_iff_forall rfl (ha a rfl) (presentedBy_phone hcontact rfl), hcontact]
    exact iff_of_true (by simp [Changes.contacts, Request.byCode, Write.binds]) trivial
  | @updated userId userData user _ hws h =>
    obtain rfl := hws
    refine ((not_authorised rfl).trans ?_).trans (setsPhone_updates userData user).symm
    change [] ++ (userData.writes user).flatMap Write.binds = [] ↔ _
    rw [flatMap_binds_updates, h]
    simp
  | @updatedByCode userId userData user email code a _ hws hemail hcode hcontact h =>
    obtain rfl := hws
    have hpresented : a.issue.PresentedBy P (.updateUser userId userData) :=
      (presentedBy_email hcontact (show Request.code (.updateUser userId userData) = _ from
        hcode)).mpr (.inl h.symm)
    refine ((authorised_iff_forall rfl (ha a rfl) hpresented).trans ?_).trans
      (setsPhone_updates userData user).symm
    change (∀ contact ∈ [] ++ (userData.writes user).flatMap Write.binds, _) ↔ _
    rw [flatMap_binds_updates, hemail, hcontact]
    cases userData.phone.filter fun p => user.phone ≠ some p with
    | none => simp
    | some phone => simp
  | @passwordByCode email password hashed code a userId hcontact hcode h =>
    refine Iff.trans ?_ (sameLetters_iff hcode h)
    rw [← presentedBy_email (r := .updateUserPasswordByCode email code password) hcontact rfl]
    constructor
    · intro hauth
      obtain ⟨b, hb, -, -, hb', -⟩ := hauth (.email email) (by simp [Changes.contacts, Request.byCode])
      cases hb
      exact hb'
    · intro hpresented
      rw [authorised_iff_forall rfl (ha a rfl) hpresented, hcontact]
      simp [Changes.contacts, Request.byCode, Write.binds]
  | @phoneUpdated userId id newPhone a loaded hcontact =>
    rw [authorised_iff_forall rfl (ha a rfl) (presentedBy_phone hcontact rfl), hcontact]
    refine iff_of_true ?_ trivial
    split
    · simp [Changes.contacts, Request.byCode, Write.binds]
    · simp [Changes.contacts, Request.byCode, Write.binds]

end Authorised

section Runs

variable {P : Platform} {s t u : Tables} {c e : Changes}

theorem authorised_congr {issued issued' : List Issue} (h : ∀ i ∈ e.issue, i ∈ issued ↔ i ∈ issued') :
    e.Authorised P issued ↔ e.Authorised P issued' := by
  unfold Changes.Authorised
  apply forall₂_congr
  intro contact hcontact
  apply exists_congr
  intro a
  apply and_congr_right
  intro ha
  rw [h a.issue (Option.mem_map_of_mem _ ha)]

theorem unused_iff_alone (hc : Ready P t c) {i : Issue} (hi : i ∈ c.issue) :
    i ∉ t.committed.filterMap Changes.issue ↔ c.Alone t := by
  rw [List.mem_filterMap, not_exists]
  constructor
  · intro h j hj
    obtain rfl := Option.mem_unique hi hj
    exact ⟨fun e he hissue => h e ⟨List.mem_of_mem_drop he, hissue⟩,
      fun e he _ hissue => h e ⟨he, hissue⟩⟩
  · rintro halone e ⟨he, hissue⟩
    obtain ⟨hsince, hprofile⟩ := halone i hi
    rw [← List.take_append_drop c.since t.committed] at he
    rcases List.mem_append.mp he with hbefore | hafter
    · cases hupdate : e.request.isProfileUpdate with
      | true => exact hprofile e (List.mem_of_mem_take hbefore) hupdate hissue
      | false =>
        obtain ⟨a, ha, rfl⟩ := Option.map_eq_some_iff.mp hi
        exact (hc.vouched a ha).unspent e hbefore hupdate hissue
    · exact hsince e hafter hissue

theorem once_append (hc : Ready P t c) :
    ((t.committed ++ [c]).filterMap Changes.issue).Nodup ↔
      (t.committed.filterMap Changes.issue).Nodup ∧ c.Alone t := by
  rw [List.filterMap_append]
  cases hissue : c.issue with
  | none =>
    have halone : c.Alone t := fun i hi => by rw [hissue] at hi; cases hi
    simp [hissue, halone]
  | some i =>
    rw [← unused_iff_alone hc hissue]
    simp [hissue, List.nodup_append]
    intro _
    constructor
    · exact fun h e he hi => h i e he hi rfl
    · rintro h j e he hj rfl
      exact h e he hj

theorem honoured_apply (ht : Consistent t) (hc : Ready P t c) (hu : c.apply t = some u) :
    u.Honoured P ↔ t.Honoured P ∧ c.Proper ∧ c.Alone t := by
  obtain ⟨v, hv, rfl⟩ := Changes.apply_eq_some.mp hu
  obtain ⟨-, hevolves⟩ := ht.rows.applyAll hc.settled.plainCode hv
  have hcommitted := committed_applyAll hv
  have hproper : c.Authorised P v.issued ↔ c.Proper := by
    apply authorised_iff hc.settled
    intro a ha
    have hchecked := (hc.vouched a ha).checked
    exact ⟨hevolves.issued.subset hchecked.1, hchecked.2⟩
  have hold : (∀ e ∈ t.committed, e.Authorised P v.issued) ↔
      ∀ e ∈ t.committed, e.Authorised P t.issued := by
    apply forall₂_congr
    intro e he
    apply authorised_congr
    intro i hi
    have hissued := ht.accepted e he i hi
    exact iff_of_true (hevolves.issued.subset hissued) hissued
  constructor
  · rintro ⟨hauthorised, honce⟩
    simp only [hcommitted, List.forall_mem_append, List.forall_mem_singleton] at hauthorised honce
    obtain ⟨hnodup, halone⟩ := (once_append hc).mp honce
    exact ⟨⟨hold.mp hauthorised.1, hnodup⟩, hproper.mp hauthorised.2, halone⟩
  · rintro ⟨hhonoured, hc', halone⟩
    constructor
    · simp only [hcommitted, List.forall_mem_append, List.forall_mem_singleton]
      exact ⟨hold.mpr hhonoured.authorised, hproper.mpr hc'⟩
    · simp only [hcommitted]
      exact (once_append hc).mpr ⟨hhonoured.once, halone⟩

theorem careful_of_not_pending {s : State Nat Tables Changes} {i : Nat} (h : pending s i = none) :
    Careful s (.next i) := by
  intro c hc
  rw [h] at hc
  cases hc

theorem honoured_step {s t : State Nat Tables Changes} {a : Action Nat Request}
    (hs : Sound Consistent Evolves (Ready P) s) (ht : step (service P) s a = some t) :
    t.store.Honoured P ↔ s.store.Honoured P ∧ Careful s a := by
  cases a with
  | start i request =>
    rw [step] at ht
    split at ht
    · cases ht
      exact (and_iff_left trivial).symm
    · cases ht
  | abort i =>
    cases ht
    exact (and_iff_left trivial).symm
  | tick =>
    cases ht
    exact Iff.trans ⟨fun h => ⟨h.authorised, h.once⟩, fun h => ⟨h.authorised, h.once⟩⟩
      (and_iff_left trivial).symm
  | next i =>
    obtain ⟨p, hi, rfl⟩ := Option.map_eq_some_iff.mp ht
    have hpending : pending s i = committing p := by
      unfold pending
      rw [hi, Option.bind_some]
    cases p with
    | raise => exact (and_iff_left (careful_of_not_pending hpending)).symm
    | query run => exact (and_iff_left (careful_of_not_pending hpending)).symm
    | commit c =>
      have hcareful : Careful s (.next i) ↔
          ((c.apply s.store).isSome → c.Proper ∧ c.Alone s.store) := by
        change (∀ e ∈ pending s i, _) ↔ _
        rw [hpending]
        simp [committing]
      have hready := (guarantee P).ready hs hi
      rw [hcareful]
      change ((c.apply s.store).getD s.store).Honoured P ↔ _
      cases happly : c.apply s.store with
      | none => simp
      | some store => simpa using honoured_apply hs.store hready happly

theorem consistent_initial (users : List User) : Consistent (Tables.initial users) := by
  refine ⟨⟨?_, ?_, ?_, ?_, ?_, ?_⟩, ?_, ?_⟩
  all_goals
    intro x hx
    cases hx

end Runs

theorem codes_authorise_once {P : Platform} {users : List User} {acts : List (Action Nat Request)}
    {s : State Nat Tables Changes}
    (hs : (requests P).exec (.idle (Tables.initial users)) acts = some s) :
    s.store.Honoured P ↔ (requests P).Meets Careful (.idle (Tables.initial users)) acts := by
  have hinitial : (Tables.initial users).Honoured P :=
    ⟨fun e he => (by cases he), List.nodup_nil⟩
  have hsound : Sound Consistent Evolves (Ready P)
      (State.idle (Tables.initial users) : State Nat Tables Changes) :=
    sound_idle (consistent_initial users)
  have hiff := (requests P).exec_iff_meets (C := Careful) (P := fun s => s.store.Honoured P)
    (fun _ _ _ h ht => (guarantee P).sound_step h ht) (fun _ _ _ h ht => honoured_step h ht) hsound hs
  exact hiff.trans (and_iff_right hinitial)

instance (P : Platform) (code issued : Code) : Decidable (P.SameLetters code issued) :=
  inferInstanceAs (Decidable (_ ∨ _))

instance (P : Platform) (i : Issue) (r : Request) : Decidable (i.PresentedBy P r) := by
  unfold Issue.PresentedBy
  cases i.contact with
  | phone phone => exact inferInstanceAs (Decidable (∃ code ∈ r.code, code = i.code))
  | email email => exact inferInstanceAs (Decidable (∃ code ∈ r.code, P.SameLetters code i.code))

instance (P : Platform) (issued : List Issue) (c : Changes) : Decidable (c.Authorised P issued) :=
  inferInstanceAs (Decidable (∀ contact ∈ c.contacts, ∃ a ∈ c.accepted, _))

instance (payload : RegisterRequest) : Decidable (payload.email = none) :=
  decidable_of_iff (payload.email.isNone = true) Option.isNone_iff_eq_none

instance (c : Changes) : Decidable c.Proper := by
  unfold Changes.Proper
  cases c.request with
  | registerUser payload =>
    exact inferInstanceAs (Decidable
      (payload.email = none ∧ (payload.phone = none ∨ payload.withCode = true)))
  | updateUser userId userData =>
    exact inferInstanceAs (Decidable (∀ w ∈ c.writes, w.setsPhone = false))
  | updateUserPasswordByCode email code password => exact inferInstanceAs (Decidable (Plain code))
  | sendVerificationCode | sendCode | authenticateByPhone | resetPassword | updateUserPhone =>
    exact instDecidableTrue

instance (c : Changes) (t : Tables) : Decidable (c.Alone t) :=
  inferInstanceAs (Decidable (∀ i ∈ c.issue, (∀ e ∈ t.committed.drop c.since, i ∉ e.issue) ∧
    ∀ e ∈ t.committed, e.request.isProfileUpdate = true → i ∉ e.issue))

instance (s : State Nat Tables Changes) (a : Action Nat Request) : Decidable (Careful s a) := by
  cases a with
  | next i =>
    exact inferInstanceAs (Decidable (∀ c ∈ pending s i,
      (c.apply s.store).isSome = true → c.Proper ∧ c.Alone s.store))
  | start | abort | tick => exact instDecidableTrue

section Ascii

theorem val_of_mem_specials {c : Char} (h : c ∈ specials) :
    c.val.toNat = 37 ∨ c.val.toNat = 95 ∨ c.val.toNat = 92 := by
  simp only [specials, List.mem_cons, List.not_mem_nil, or_false] at h
  rcases h with rfl | rfl | rfl
  · decide
  · decide
  · decide

theorem toLower_mem_specials (c : Char) : c.toLower ∈ specials ↔ c ∈ specials := by
  unfold Char.toLower
  split
  next h =>
    have hlow : 65 ≤ c.val.toNat := UInt32.le_iff_toNat_le.mp h.1
    have hhigh : c.val.toNat ≤ 90 := UInt32.le_iff_toNat_le.mp h.2
    have hlower : (c.val + ('a'.val - 'A'.val)).toNat = (c.val.toNat + 32) % 2 ^ 32 :=
      UInt32.toNat_add _ _
    refine iff_of_false (fun hmem => ?_) (fun hmem => ?_)
    · have hval := val_of_mem_specials hmem
      simp only at hval
      omega
    · have hval := val_of_mem_specials hmem
      omega
  next h => exact Iff.rfl

theorem plain_map_toLower (code : Code) : Plain (code.map Char.toLower) ↔ Plain code := by
  unfold Plain
  rw [List.forall_mem_map]
  simp only [toLower_mem_specials]

def Platform.ascii : Platform where
  lower code := code.map Char.toLower
  sqlLower code := code.map Char.toLower
  isDecimal := Char.isDigit
  isSpace := Char.isWhitespace
  passwordHash password := "hash of " ++ password
  haveConfig := true
  plain_lower := plain_map_toLower
  plain_sqlLower := plain_map_toLower

end Ascii

namespace Sample

def owner : User :=
  { id := 1, username := some "owner", email := some "owner@example.org", phone := none,
    hashedPassword := some "hash of Old-pass-1", isActive := true }

def sms : Draw digits 6 where
  code := ['1', '2', '3', '4', '5', '6']
  length_eq := rfl
  mem_charset := @of_decide_eq_true _ (List.decidableBAll _ _) rfl

def mail : Draw uppercaseAndDigits 4 where
  code := ['A', '7', 'K', '2']
  length_eq := rfl
  mem_charset := @of_decide_eq_true _ (List.decidableBAll _ _) rfl

def alone (i : Nat) (r : Request) (statements : Nat) : List (Action Nat Request) :=
  .start i r :: List.replicate statements (.next i)

def careful : List (Action Nat Request) :=
  alone 0 (.sendVerificationCode "13800000000" sms) 3 ++
  alone 1 (.updateUserPhone 1 "13800000000" sms.code) 5 ++
  alone 2 (.sendCode "owner@example.org" mail) 2 ++
  alone 3 (.updateUserPasswordByCode "owner@example.org" ['a', '7', 'k', '2'] "New-pass-1") 4

def anyCode : List (Action Nat Request) :=
  alone 0 (.sendCode "owner@example.org" mail) 2 ++
  alone 1 (.updateUserPasswordByCode "owner@example.org" ['%'] "New-pass-1") 4

end Sample

theorem careful_codes_honoured :
    ∃ s, (requests .ascii).exec (.idle (Tables.initial [Sample.owner])) Sample.careful = some s ∧
      s.store.committed.length = 4 ∧ s.store.Honoured .ascii := by
  have hruns : ((requests .ascii).exec (.idle (Tables.initial [Sample.owner])) Sample.careful).any
      (fun s => s.store.committed.length = 4) = true := by
    decide +kernel
  obtain ⟨s, hs, hends⟩ := (Option.any_eq_true _ _).mp hruns
  refine ⟨s, hs, of_decide_eq_true hends, (codes_authorise_once hs).mpr ?_⟩
  exact (requests .ascii).meets_of_check (fun _ _ h => of_decide_eq_true h)
    (show (requests .ascii).check (fun s a => decide (Careful s a))
      (.idle (Tables.initial [Sample.owner])) Sample.careful = true by decide +kernel)

theorem any_code_not_honoured :
    ∃ s, (requests .ascii).exec (.idle (Tables.initial [Sample.owner])) Sample.anyCode = some s ∧
      s.store.users.map User.hashedPassword = [some "hash of New-pass-1"] ∧
        ¬ s.store.Honoured .ascii := by
  have hruns : ((requests .ascii).exec (.idle (Tables.initial [Sample.owner])) Sample.anyCode).any
      (fun s => s.store.users.map User.hashedPassword = [some "hash of New-pass-1"] ∧
        ¬ ∀ c ∈ s.store.committed, c.Authorised .ascii s.store.issued) = true := by
    decide +kernel
  obtain ⟨s, hs, hends⟩ := (Option.any_eq_true _ _).mp hruns
  obtain ⟨hpassword, hnot⟩ := of_decide_eq_true hends
  exact ⟨s, hs, hpassword, fun h => hnot h.authorised⟩

end Acps.Account
