import Acps.Account.CodeRows

/-!
What the service functions commit, and what a transaction that was let through with a code can
rely on until it commits.
-/

namespace Acps.Account

open ReadCommitted LikePattern

def Changes.issue (c : Changes) : Option Issue := c.accepted.map Accepted.issue

def RegisterRequest.withCode (payload : RegisterRequest) : Bool :=
  (given payload.phone).isSome && (givenCode payload.verifyCode).isSome

def Accepted.Checked (issued : List Issue) (a : Accepted) : Prop :=
  a.issue ∈ issued ∧ a.time ≤ a.issue.expiresAt

inductive Settled (P : Platform) : Request → Option Accepted → List Write → Prop
  | insertedCode {phone : String} {draw : Draw digits 6} {now expiresAt : Time} :
    Settled P (.sendVerificationCode phone draw) none
      [.deleteExpired now, .insertVerificationCode phone draw.code expiresAt]
  | renewedCode {phone : String} {draw : Draw digits 6} {id : Nat} {now expiresAt : Time} :
    Settled P (.sendVerificationCode phone draw) none
      [.deleteExpired now, .renewVerificationCode id draw.code expiresAt]
  | sentCode {email : String} {draw : Draw uppercaseAndDigits 4} {createdAt expiresAt : Time} :
    Settled P (.sendCode email draw) none [.insertEmailCode email draw.code createdAt expiresAt]
  | registered {payload : RegisterRequest} (h : payload.withCode = false) :
    Settled P (.registerUser payload) none [payload.user P]
  | registeredByCode {payload : RegisterRequest} {phone : String} {code : Code} {a : Accepted}
      (hphone : given payload.phone = some phone) (hcode : givenCode payload.verifyCode = some code)
      (hcontact : a.issue.contact = .phone phone) (h : a.issue.code = code) :
    Settled P (.registerUser payload) (some a) [.deleteVerificationCode a.row, payload.user P]
  | loggedIn {phone : String} {a : Accepted} (hcontact : a.issue.contact = .phone phone) :
    Settled P (.authenticateByPhone phone a.issue.code) (some a) [.deleteVerificationCode a.row]
  | reset {phone newPassword hashed : String} {a : Accepted} {userId : Nat}
      (hcontact : a.issue.contact = .phone phone) :
    Settled P (.resetPassword phone a.issue.code newPassword) (some a)
      [.deleteVerificationCode a.row, .setPassword userId hashed]
  | updated {userId : Nat} {userData : UserUpdate} {user : User} {ws : List Write}
      (hws : ws = userData.writes user)
      (h : (userData.email.map EmailStr.val).filter (fun e => user.email ≠ some e) = none) :
    Settled P (.updateUser userId userData) none ws
  | updatedByCode {userId : Nat} {userData : UserUpdate} {user : User} {email : String}
      {code : Code} {a : Accepted} {ws : List Write} (hws : ws = userData.writes user)
      (hemail : (userData.email.map EmailStr.val).filter (fun e => user.email ≠ some e) = some email)
      (hcode : userData.emailCode = some code) (hcontact : a.issue.contact = .email email)
      (h : P.sqlLower a.issue.code = P.lower code) :
    Settled P (.updateUser userId userData) (some a) ws
  | passwordByCode {email password hashed : String} {code : Code} {a : Accepted} {userId : Nat}
      (hcontact : a.issue.contact = .email email) (hcode : Plain a.issue.code)
      (h : P.ilike code a.issue.code = true) :
    Settled P (.updateUserPasswordByCode email code password) (some a)
      [.setPassword userId hashed, .useEmailCode a.issue.number a.time]
  | phoneUpdated {userId id : Nat} {newPhone : String} {a : Accepted} {loaded : Option String}
      (hcontact : a.issue.contact = .phone newPhone) :
    Settled P (.updateUserPhone userId newPhone a.issue.code) (some a)
      (.deleteVerificationCode a.row ::
        if loaded = some newPhone then [] else [.setPhone id newPhone])

namespace Settled

variable {P : Platform} {r : Request} {accepted : Option Accepted} {ws : List Write}

theorem plainCode (h : Settled P r accepted ws) : ∀ w ∈ ws, w.PlainCode := by
  have hupdate (userData : UserUpdate) (user : User) : ∀ w ∈ userData.writes user, w.PlainCode := by
    intro w hw
    rcases List.mem_append.mp hw with hw | hw
    all_goals
      obtain ⟨x, -, rfl⟩ := Option.map_eq_some_iff.mp (Option.mem_toList.mp hw)
      trivial
  cases h with
  | sentCode =>
    rename_i draw _ _
    intro w hw
    obtain rfl := List.mem_singleton.mp hw
    exact plain_uppercaseAndDigits draw.mem_charset
  | updated hws => exact hws ▸ hupdate _ _
  | updatedByCode hws => exact hws ▸ hupdate _ _
  | phoneUpdated =>
    split
    · simp [Write.PlainCode]
    · simp [Write.PlainCode]
  | insertedCode | renewedCode | registered | registeredByCode | loggedIn | reset
  | passwordByCode => simp [Write.PlainCode, RegisterRequest.user]

end Settled

theorem given_eq_some {s : Option String} {v : String} (h : given s = some v) : s = some v :=
  (Option.filter_eq_some_iff.mp h).1

theorem givenCode_eq_some {code : Option Code} {v : Code} (h : givenCode code = some v) :
    code = some v := (Option.filter_eq_some_iff.mp h).1

structure Consistent (t : Tables) : Prop where
  rows : Rows t
  accepted : ∀ c ∈ t.committed, ∀ i ∈ c.issue, i ∈ t.issued
  /-- Other than by a profile update, a code is spent by the commit that it lets through. -/
  spent : ∀ c ∈ t.committed, c.request.isProfileUpdate = false → ∀ i ∈ c.issue,
    (∀ r ∈ t.verificationCodes, r.issue ≠ i) ∧ ∀ r ∈ t.emailCodes, r.issue = i → r.usedAt.isSome

structure Vouched (t : Tables) (since : Nat) (a : Accepted) : Prop where
  checked : a.Checked t.issued
  row : ∀ r ∈ t.verificationCodes, r.issue = a.issue → r.id = a.row
  unspent : ∀ c ∈ t.committed.take since, c.request.isProfileUpdate = false → a.issue ∉ c.issue

structure Ready (P : Platform) (t : Tables) (c : Changes) : Prop where
  since_le : c.since ≤ t.committed.length
  vouched : ∀ a ∈ c.accepted, Vouched t c.since a
  settled : Settled P c.request c.accepted c.writes

section Ready

variable {P : Platform} {s t : Tables} {since : Nat} {a : Accepted}

theorem Vouched.later (hs : Consistent s) (hsince : since ≤ s.committed.length)
    (h : Vouched s since a) (hst : Evolves s t) : Vouched t since a where
  checked := ⟨hst.issued.subset h.checked.1, h.checked.2⟩
  row r hr hissue := by
    rcases hst.phones r hr with hr | hr
    · exact h.row r hr hissue
    · have hlt := hs.rows.numbered a.issue h.checked.1
      have hnumber : r.number = a.issue.number := congrArg Issue.number hissue
      omega
  unspent := by
    have htake : t.committed.take since = s.committed.take since := by
      obtain ⟨rest, hrest⟩ := hst.committed
      rw [← hrest, List.take_append_of_le_length hsince]
    rw [htake]
    exact h.unspent

theorem Consistent.vouched_phone (ht : Consistent t) {r : VerificationCode}
    (hr : r ∈ t.verificationCodes) {time : Time} (htime : time ≤ r.expiresAt) :
    Vouched t since { issue := r.issue, row := r.id, time } where
  checked := ⟨ht.rows.phones r hr, htime⟩
  row q hq hissue := by rw [ht.rows.number_inj q hq r hr (congrArg Issue.number hissue)]
  unspent c hc hprofile hissue :=
    (ht.spent c (List.mem_of_mem_take hc) hprofile _ hissue).1 r hr rfl

theorem Consistent.vouched_email (ht : Consistent t) {r : EmailCode} (hr : r ∈ t.emailCodes)
    {time : Time} (htime : time < r.expiresAt) (hunused : r.usedAt = none) :
    Vouched t since { issue := r.issue, row := r.id, time } where
  checked := ⟨(ht.rows.emails r hr).1, Nat.le_of_lt htime⟩
  row q hq hissue := by cases congrArg Issue.contact hissue
  unspent c hc hprofile hissue := by
    have hused := (ht.spent c (List.mem_of_mem_take hc) hprofile _ hissue).2 r hr rfl
    rw [hunused] at hused
    cases hused

theorem mem_latestEmailCode {email : String} {currentTime : Time} {p : Code → Bool}
    {r : EmailCode} (h : t.latestEmailCode email currentTime p = some r) :
    r ∈ t.emailCodes ∧ r.email = email ∧ currentTime < r.expiresAt ∧ p r.code = true ∧
      r.usedAt = none := by
  have hmem := List.argmax_mem h
  simpa using hmem

abbrev Justified (P : Platform) (p : Txn) (t : Tables) : Prop :=
  p.Justified Consistent Evolves (Ready P) t

theorem justified_finish {r : Request} (ht : Consistent t) (hsince : since ≤ t.committed.length)
    {accepted : Option Accepted} (hv : ∀ a ∈ accepted, Vouched t since a) {ws : List Write}
    (h : Settled P r accepted ws) : Justified P (r.finish since accepted ws) t := by
  intro u hu htu
  exact ⟨hsince.trans htu.committed.length_le, fun a ha => (hv a ha).later ht hsince htu, h⟩

theorem justified_verifyCode (hsince : since ≤ t.committed.length) {phone : String} {code : Code}
    {passed : Accepted → Txn}
    (h : ∀ a u, Consistent u → since ≤ u.committed.length → Vouched u since a →
      a.issue.contact = .phone phone → a.issue.code = code → Justified P (passed a) u) :
    Justified P (verifyCode phone code passed) t := by
  refine Program.justified_query.mpr fun u hu htu => ?_
  have hsince := hsince.trans htu.committed.length_le
  split
  · trivial
  next row hrow =>
  refine Program.justified_query.mpr fun v hv huv => ?_
  split
  · trivial
  next htime =>
  split
  · trivial
  next hcode =>
  have hphone : row.phone = phone := by simpa using List.find?_some hrow
  have hvouched : Vouched u since { issue := row.issue, row := row.id, time := v.now } :=
    hu.vouched_phone (List.mem_of_find?_eq_some hrow) (Nat.le_of_not_lt htime)
  exact h _ v hv (hsince.trans huv.committed.length_le) (hvouched.later hu hsince huv)
    (congrArg Contact.phone hphone) (not_not.mp hcode)

theorem justified_checkUsername {username : String} {free : Txn} (h : Justified P free t) :
    Justified P (checkUsername username free) t := by
  refine Program.justified_query.mpr fun u hu htu => ?_
  split
  · trivial
  · exact h.later (fun _ _ _ h h' => h.trans h') htu

variable (hsince : since ≤ t.committed.length)

include hsince

theorem justified_sendVerificationCode (phone : String) (draw : Draw digits 6) :
    Justified P (sendVerificationCode phone draw
      (Request.finish (.sendVerificationCode phone draw) since)) t := by
  refine Program.justified_query.mpr fun u hu htu => ?_
  refine Program.justified_query.mpr fun v hv huv => ?_
  have hsince := hsince.trans (htu.trans huv).committed.length_le
  split
  · exact justified_finish hv hsince (fun a ha => by cases ha) .insertedCode
  · exact justified_finish hv hsince (fun a ha => by cases ha) .renewedCode

theorem justified_sendCode (email : String) (draw : Draw uppercaseAndDigits 4) :
    Justified P (sendCode P email draw (Request.finish (.sendCode email draw) since)) t := by
  unfold sendCode
  split
  · trivial
  split
  · trivial
  refine Program.justified_query.mpr fun u hu htu => ?_
  exact justified_finish hu (hsince.trans htu.committed.length_le) (fun a ha => by cases ha)
    .sentCode

theorem justified_registerUser (ht : Consistent t) (payload : RegisterRequest) :
    Justified P (registerUser P payload (Request.finish (.registerUser payload) since)) t := by
  unfold registerUser
  split
  next phone code hphone hcode =>
    refine Program.justified_query.mpr fun u hu htu => ?_
    split
    · trivial
    refine justified_verifyCode (hsince.trans htu.committed.length_le) ?_
    intro a v hv hsince hvouched hcontact ha
    have hcreate := justified_finish hv hsince (fun b hb => by cases hb; exact hvouched)
      (Settled.registeredByCode (P := P) hphone hcode hcontact ha)
    split
    · exact justified_checkUsername hcreate
    · exact hcreate
  next hnot =>
    have hwith : payload.withCode = false := by
      unfold RegisterRequest.withCode
      cases hphone : given payload.phone with
      | none => rfl
      | some phone =>
        cases hcode : givenCode payload.verifyCode with
        | none => rfl
        | some code => exact absurd hcode (hnot phone code hphone)
    split
    · exact justified_checkUsername
        (justified_finish ht hsince (fun a ha => by cases ha) (.registered hwith))
    · trivial

theorem justified_authenticateByPhone (phone : String) (code : Code) :
    Justified P (authenticateByPhone phone code
      (Request.finish (.authenticateByPhone phone code) since)) t := by
  refine Program.justified_query.mpr fun u hu htu => ?_
  split
  · trivial
  split
  · trivial
  refine justified_verifyCode (hsince.trans htu.committed.length_le) ?_
  rintro a v hv hsince hvouched hcontact rfl
  exact justified_finish hv hsince (fun b hb => by cases hb; exact hvouched) (.loggedIn hcontact)

theorem justified_resetPassword (phone : String) (code : Code) (newPassword : String) :
    Justified P (resetPassword P phone code newPassword
      (Request.finish (.resetPassword phone code newPassword) since)) t := by
  refine Program.justified_query.mpr fun u hu htu => ?_
  split
  · trivial
  refine justified_verifyCode (hsince.trans htu.committed.length_le) ?_
  rintro a v hv hsince hvouched hcontact rfl
  exact justified_finish hv hsince (fun b hb => by cases hb; exact hvouched) (.reset hcontact)

theorem justified_updateUser (userId : Nat) (userData : UserUpdate) :
    Justified P (updateUser P userId userData
      (Request.finish (.updateUser userId userData) since)) t := by
  refine Program.justified_query.mpr fun u hu htu => ?_
  have hsince := hsince.trans htu.committed.length_le
  split
  · trivial
  next user huser =>
  split
  next hemail => exact justified_finish hu hsince (fun a ha => by cases ha) (.updated rfl hemail)
  next email hemail =>
  split
  · trivial
  next code hcode =>
  refine Program.justified_query.mpr fun v hv huv => ?_
  refine Program.justified_query.mpr fun w hw hvw => ?_
  split
  · trivial
  next row hrow =>
  obtain ⟨hmem, hrowemail, htime, hletters, hunused⟩ := mem_latestEmailCode hrow
  have hvouched : Vouched w since { issue := row.issue, row := row.id, time := v.now } :=
    hw.vouched_email hmem htime hunused
  exact justified_finish hw (hsince.trans (huv.trans hvw).committed.length_le)
    (fun a ha => by cases ha; exact hvouched)
    (.updatedByCode rfl hemail (givenCode_eq_some hcode) (congrArg Contact.email hrowemail)
      (of_decide_eq_true hletters))

theorem justified_updateUserPasswordByCode (email : String) (code : Code) (password : String) :
    Justified P (updateUserPasswordByCode P email code password
      (Request.finish (.updateUserPasswordByCode email code password) since)) t := by
  refine Program.justified_query.mpr fun u hu htu => ?_
  refine Program.justified_query.mpr fun v hv huv => ?_
  have hsince := hsince.trans (htu.trans huv).committed.length_le
  split
  · trivial
  next row hrow =>
  obtain ⟨hmem, hrowemail, htime, hletters, hunused⟩ := mem_latestEmailCode hrow
  have hvouched : Vouched v since { issue := row.issue, row := row.id, time := u.now } :=
    hv.vouched_email hmem htime hunused
  refine Program.justified_query.mpr fun w hw hvw => ?_
  split
  · split
    · trivial
    · exact justified_finish hw (hsince.trans hvw.committed.length_le)
        (fun a ha => by cases ha; exact hvouched.later hv hsince hvw)
        (.passwordByCode (congrArg Contact.email hrowemail) (hv.rows.emails row hmem).2 hletters)
  · trivial

theorem justified_updateUserPhone (userId : Nat) (newPhone : String) (code : Code) :
    Justified P (updateUserPhone userId newPhone code
      (Request.finish (.updateUserPhone userId newPhone code) since)) t := by
  refine Program.justified_query.mpr fun u hu htu => ?_
  split
  · trivial
  refine Program.justified_query.mpr fun v hv huv => ?_
  split
  · trivial
  refine justified_verifyCode (hsince.trans (htu.trans huv).committed.length_le) ?_
  rintro a w hw hsince hvouched hcontact rfl
  exact justified_finish hw hsince (fun b hb => by cases hb; exact hvouched)
    (.phoneUpdated hcontact)

theorem justified_run (ht : Consistent t) (r : Request) : Justified P (r.run P (r.finish since)) t := by
  cases r with
  | sendVerificationCode phone draw => exact justified_sendVerificationCode hsince phone draw
  | sendCode email draw => exact justified_sendCode hsince email draw
  | registerUser payload => exact justified_registerUser hsince ht payload
  | authenticateByPhone phone code => exact justified_authenticateByPhone hsince phone code
  | resetPassword phone code newPassword =>
    exact justified_resetPassword hsince phone code newPassword
  | updateUser userId userData => exact justified_updateUser hsince userId userData
  | updateUserPasswordByCode email code password =>
    exact justified_updateUserPasswordByCode hsince email code password
  | updateUserPhone userId newPhone code =>
    exact justified_updateUserPhone hsince userId newPhone code

end Ready

section Commit

variable {P : Platform} {t u : Tables} {c : Changes}

theorem Settled.spends {r : Request} {a : Accepted} {ws : List Write}
    (h : Settled P r (some a) ws) (hprofile : r.isProfileUpdate = false) :
    (∃ phone, a.issue.contact = .phone phone ∧ .deleteVerificationCode a.row ∈ ws) ∨
      ∃ email, a.issue.contact = .email email ∧ .useEmailCode a.issue.number a.time ∈ ws := by
  cases h with
  | registeredByCode _ _ hcontact _ => exact .inl ⟨_, hcontact, by simp⟩
  | loggedIn hcontact => exact .inl ⟨_, hcontact, by simp⟩
  | reset hcontact => exact .inl ⟨_, hcontact, by simp⟩
  | updatedByCode => cases hprofile
  | passwordByCode hcontact _ _ => exact .inr ⟨_, hcontact, by simp⟩
  | phoneUpdated hcontact => exact .inl ⟨_, hcontact, by simp⟩

theorem spent_later (ht : Rows t) (htu : Evolves t u) {i : Issue} (hi : i ∈ t.issued)
    (h : (∀ r ∈ t.verificationCodes, r.issue ≠ i) ∧
      ∀ r ∈ t.emailCodes, r.issue = i → r.usedAt.isSome) :
    (∀ r ∈ u.verificationCodes, r.issue ≠ i) ∧
      ∀ r ∈ u.emailCodes, r.issue = i → r.usedAt.isSome := by
  have hlt := ht.numbered i hi
  constructor
  · intro r hr hissue
    rcases htu.phones r hr with hr | hr
    · exact h.1 r hr hissue
    · have hnumber : r.number = i.number := congrArg Issue.number hissue
      omega
  · intro r hr hissue
    rcases htu.emails r hr with hr | ⟨q, hq, hqissue, hused⟩
    · have hnumber : r.id = i.number := congrArg Issue.number hissue
      omega
    · exact hused (h.2 q hq (hqissue.trans hissue))

theorem spent_now (ht : Rows t) (hc : Ready P t c) (hws : c.writes.foldlM Write.apply t = some u)
    (hprofile : c.request.isProfileUpdate = false) {i : Issue} (hi : i ∈ c.issue) :
    (∀ r ∈ u.verificationCodes, r.issue ≠ i) ∧
      ∀ r ∈ u.emailCodes, r.issue = i → r.usedAt.isSome := by
  obtain ⟨a, ha, rfl⟩ := Option.map_eq_some_iff.mp hi
  have hvouched := hc.vouched a ha
  have hlt := ht.numbered _ hvouched.checked.1
  have hplain := hc.settled.plainCode
  obtain ⟨-, hevolves⟩ := ht.applyAll hplain hws
  have hsettled := hc.settled
  rw [ha] at hsettled
  rcases hsettled.spends hprofile with ⟨phone, hcontact, hw⟩ | ⟨email, hcontact, hw⟩
  · refine ⟨fun r hr hissue => ?_, fun r hr hissue => ?_⟩
    · have hnumber : r.number = a.issue.number := congrArg Issue.number hissue
      have hid : r.id = a.row := by
        rcases hevolves.phones r hr with hr | hr
        · exact hvouched.row r hr hissue
        · omega
      have hfresh := ht.deleted hplain hw hws r hr hid
      omega
    · cases (congrArg Issue.contact hissue).trans hcontact
  · refine ⟨fun r hr hissue => ?_, fun r hr hissue => ?_⟩
    · cases (congrArg Issue.contact hissue).trans hcontact
    · have hid : r.id = a.issue.number := congrArg Issue.number hissue
      rcases ht.used hplain hw hws r hr hid with hused | hfresh
      · exact hused
      · omega

theorem Changes.apply_eq_some : c.apply t = some u ↔
    ∃ v, c.writes.foldlM Write.apply t = some v ∧
      u = { v with committed := v.committed ++ [c] } := by
  unfold Changes.apply
  rw [Option.map_eq_some_iff]
  simp only [eq_comm]

theorem Consistent.apply (ht : Consistent t) (hc : Ready P t c) (hu : c.apply t = some u) :
    Consistent u ∧ Evolves t u := by
  obtain ⟨v, hv, rfl⟩ := Changes.apply_eq_some.mp hu
  obtain ⟨hrows, hevolves⟩ := ht.rows.applyAll hc.settled.plainCode hv
  have hcommitted := committed_applyAll hv
  refine ⟨⟨hrows.committed _, ?_, ?_⟩, hevolves.trans (.of_rows (List.prefix_append _ _))⟩
  all_goals
    intro e he
    rw [hcommitted] at he
  · intro i hi
    apply hevolves.issued.subset
    rcases List.mem_append.mp he with he | he
    · exact ht.accepted e he i hi
    · obtain rfl := List.mem_singleton.mp he
      obtain ⟨a, ha, rfl⟩ := Option.map_eq_some_iff.mp hi
      exact (hc.vouched a ha).checked.1
  · intro hprofile i hi
    rcases List.mem_append.mp he with he | he
    · exact spent_later ht.rows hevolves (ht.accepted e he i hi) (ht.spent e he hprofile i hi)
    · obtain rfl := List.mem_singleton.mp he
      exact spent_now ht.rows hc hv hprofile hi

theorem guarantee (P : Platform) : Guarantee (service P) Consistent Evolves (Ready P) where
  refl := Evolves.refl
  trans _ _ _ := Evolves.trans
  started r _ ht := justified_run (Nat.le_refl _) ht r
  tick _ ht := ⟨⟨ht.rows.now _, ht.accepted, ht.spent⟩, .of_rows List.prefix_rfl⟩
  commit _ _ _ ht hc hu := ht.apply hc hu

end Commit

end Acps.Account
