import Acps.Account.VerificationCodes

/-!
What the writes of a transaction can do to the code rows: a row keeps its code until it is gone,
spent, or renewed under a new number.
-/

namespace Acps.Account

open LikePattern

theorem plain_uppercaseAndDigits {code : Code} (h : ∀ c ∈ code, c ∈ uppercaseAndDigits) :
    Plain code := by
  have hcharset : ∀ c ∈ specials, c ∉ uppercaseAndDigits :=
    @of_decide_eq_true _ (List.decidableBAll _ _) rfl
  exact fun c hc hspecial => hcharset c hspecial (h c hc)

def Write.PlainCode : Write → Prop
  | .insertEmailCode _ code _ _ => Plain code
  | _ => True

structure Rows (t : Tables) : Prop where
  numbered : ∀ i ∈ t.issued, i.number < t.issued.length
  phones : ∀ r ∈ t.verificationCodes, r.issue ∈ t.issued
  ids : ∀ r ∈ t.verificationCodes, r.id < t.issued.length
  id_inj : ∀ r ∈ t.verificationCodes, ∀ q ∈ t.verificationCodes, r.id = q.id → r = q
  number_inj : ∀ r ∈ t.verificationCodes, ∀ q ∈ t.verificationCodes, r.number = q.number → r = q
  emails : ∀ r ∈ t.emailCodes, r.issue ∈ t.issued ∧ Plain r.code

structure Evolves (s t : Tables) : Prop where
  issued : s.issued <+: t.issued
  committed : s.committed <+: t.committed
  phones : ∀ r ∈ t.verificationCodes, r ∈ s.verificationCodes ∨ s.issued.length ≤ r.number
  emails : ∀ r ∈ t.emailCodes, s.issued.length ≤ r.id ∨
    ∃ q ∈ s.emailCodes, q.issue = r.issue ∧ (q.usedAt.isSome → r.usedAt.isSome)

variable {s t u : Tables} {w : Write}

namespace Evolves

theorem refl (t : Tables) : Evolves t t where
  issued := List.prefix_rfl
  committed := List.prefix_rfl
  phones _ hr := .inl hr
  emails r hr := .inr ⟨r, hr, rfl, id⟩

theorem filter (p : VerificationCode → Bool) :
    Evolves t { t with verificationCodes := t.verificationCodes.filter p } :=
  { refl t with phones := fun _ hr => .inl (List.mem_of_mem_filter hr) }

theorem trans (hst : Evolves s t) (htu : Evolves t u) : Evolves s u where
  issued := hst.issued.trans htu.issued
  committed := hst.committed.trans htu.committed
  phones r hr := by
    rcases htu.phones r hr with hr | hr
    · exact hst.phones r hr
    · exact .inr (hst.issued.length_le.trans hr)
  emails r hr := by
    rcases htu.emails r hr with hr | ⟨q, hq, hissue, hused⟩
    · exact .inl (hst.issued.length_le.trans hr)
    rcases hst.emails q hq with hq | ⟨p, hp, hissue', hused'⟩
    · have hid : q.id = r.id := congrArg Issue.number hissue
      exact .inl (hid ▸ hq)
    · exact .inr ⟨p, hp, hissue'.trans hissue, hused ∘ hused'⟩

theorem of_rows {now : Time} {committed : List Changes} (h : t.committed <+: committed) :
    Evolves t { t with now, committed } := { refl t with committed := h }

end Evolves

namespace Rows

variable (h : Rows t)

include h

theorem number_lt {r : VerificationCode} (hr : r ∈ t.verificationCodes) :
    r.number < t.issued.length := h.numbered _ (h.phones r hr)

theorem numbered_append (contact : Contact) (code : Code) (expiresAt : Time) :
    ∀ i ∈ t.issued ++ [Write.issue contact code expiresAt t],
      i.number < (t.issued ++ [Write.issue contact code expiresAt t]).length := by
  intro i hi
  rw [List.length_append]
  rcases List.mem_append.mp hi with hi | hi
  · exact Nat.lt_succ_of_lt (h.numbered i hi)
  · obtain rfl := List.mem_singleton.mp hi
    exact Nat.lt_succ_self _

theorem committed (committed : List Changes) : Rows { t with committed } :=
  ⟨h.numbered, h.phones, h.ids, h.id_inj, h.number_inj, h.emails⟩

theorem now (now : Time) : Rows { t with now } :=
  ⟨h.numbered, h.phones, h.ids, h.id_inj, h.number_inj, h.emails⟩

theorem withUsers (users : List User) : Rows { t with users } :=
  ⟨h.numbered, h.phones, h.ids, h.id_inj, h.number_inj, h.emails⟩

theorem filter (p : VerificationCode → Bool) :
    Rows { t with verificationCodes := t.verificationCodes.filter p } where
  numbered := h.numbered
  phones r hr := h.phones r (List.mem_of_mem_filter hr)
  ids r hr := h.ids r (List.mem_of_mem_filter hr)
  id_inj r hr q hq := h.id_inj r (List.mem_of_mem_filter hr) q (List.mem_of_mem_filter hq)
  number_inj r hr q hq := h.number_inj r (List.mem_of_mem_filter hr) q (List.mem_of_mem_filter hq)
  emails := h.emails

end Rows

namespace Write

theorem updateRow_eq {userId : Nat} {taken : User → Bool} {f : User → User}
    (hu : updateRow t userId taken f = some u) : ∃ users, u = { t with users } := by
  unfold updateRow at hu
  split at hu
  · cases hu
  · cases hu
    exact ⟨_, rfl⟩

def OnUsers : Write → Prop
  | .insertUser _ _ _ _ | .setEmail _ _ | .setPhone _ _ | .setPassword _ _ => True
  | _ => False

theorem OnUsers.apply_eq (hw : w.OnUsers) (hu : w.apply t = some u) :
    ∃ users, u = { t with users } := by
  cases w with
  | insertUser username email phone hashedPassword =>
    rw [apply] at hu
    split at hu
    · cases hu
    · cases hu
      exact ⟨_, rfl⟩
  | setEmail userId email => exact updateRow_eq hu
  | setPhone userId phone => exact updateRow_eq hu
  | setPassword userId hashedPassword => exact updateRow_eq hu
  | deleteExpired | insertVerificationCode | renewVerificationCode | deleteVerificationCode
  | insertEmailCode | useEmailCode => cases hw

end Write

theorem committed_apply (hu : w.apply t = some u) : u.committed = t.committed := by
  by_cases husers : w.OnUsers
  · obtain ⟨users, rfl⟩ := husers.apply_eq hu
    rfl
  cases w with
  | deleteExpired | deleteVerificationCode | useEmailCode =>
    cases hu
    rfl
  | insertVerificationCode =>
    rw [Write.apply] at hu
    split at hu
    · cases hu
    split at hu
    · cases hu
    · cases hu
      rfl
  | renewVerificationCode =>
    rw [Write.apply] at hu
    split at hu
    · cases hu
    · cases hu
      rfl
  | insertEmailCode =>
    rw [Write.apply] at hu
    split at hu
    · cases hu
    · cases hu
      rfl
  | insertUser | setEmail | setPhone | setPassword => exact absurd trivial husers

theorem committed_applyAll {ws : List Write} (hu : ws.foldlM Write.apply t = some u) :
    u.committed = t.committed := by
  induction ws generalizing t with
  | nil =>
    cases hu
    rfl
  | cons w ws ih =>
    rw [List.foldlM_cons] at hu
    obtain ⟨v, hv, hu⟩ := Option.bind_eq_some_iff.mp hu
    exact (ih hu).trans (committed_apply hv)

namespace Rows

variable (h : Rows t)

include h

theorem insertVerificationCode {phone : String} {code : Code} {expiresAt : Time}
    (hu : (Write.insertVerificationCode phone code expiresAt).apply t = some u) :
    Rows u ∧ Evolves t u := by
  rw [Write.apply] at hu
  split at hu
  · cases hu
  split at hu
  · cases hu
  cases hu
  have hnew {r : VerificationCode} (hr : r ∈ t.verificationCodes) : t.issued.length ≠ r.number :=
    (Nat.ne_of_lt (h.number_lt hr)).symm
  have hid {r : VerificationCode} (hr : r ∈ t.verificationCodes) : t.issued.length ≠ r.id :=
    (Nat.ne_of_lt (h.ids r hr)).symm
  refine ⟨⟨h.numbered_append _ _ _, ?_, ?_, ?_, ?_, ?_⟩, List.prefix_append _ _, List.prefix_rfl,
    ?_, (Evolves.refl t).emails⟩
  · intro r hr
    rcases List.mem_cons.mp hr with rfl | hr
    · exact List.mem_append_right _ List.mem_cons_self
    · exact List.mem_append_left _ (h.phones r hr)
  · intro r hr
    rw [List.length_append]
    rcases List.mem_cons.mp hr with rfl | hr
    · exact Nat.lt_succ_self _
    · exact Nat.lt_succ_of_lt (h.ids r hr)
  · intro r hr q hq heq
    rcases List.mem_cons.mp hr with rfl | hr <;> rcases List.mem_cons.mp hq with rfl | hq
    · rfl
    · exact absurd heq (hid hq)
    · exact absurd heq.symm (hid hr)
    · exact h.id_inj r hr q hq heq
  · intro r hr q hq heq
    rcases List.mem_cons.mp hr with rfl | hr <;> rcases List.mem_cons.mp hq with rfl | hq
    · rfl
    · exact absurd heq (hnew hq)
    · exact absurd heq.symm (hnew hr)
    · exact h.number_inj r hr q hq heq
  · exact fun r hr => ⟨List.mem_append_left _ (h.emails r hr).1, (h.emails r hr).2⟩
  · intro r hr
    rcases List.mem_cons.mp hr with rfl | hr
    · exact .inr (Nat.le_refl _)
    · exact .inl hr

theorem renewVerificationCode {id : Nat} {code : Code} {expiresAt : Time}
    (hu : (Write.renewVerificationCode id code expiresAt).apply t = some u) :
    Rows u ∧ Evolves t u := by
  rw [Write.apply] at hu
  split at hu
  · cases hu
  next row hrow =>
  cases hu
  have hrowid : row.id = id := by simpa using List.find?_some hrow
  have hrowmem := List.mem_of_find?_eq_some hrow
  -- a row of the new table is an old one, or the row of this id under the new number
  have hrows : ∀ r ∈ t.verificationCodes.map fun r =>
      if r.id = id then { r with code, expiresAt, number := t.issued.length } else r,
      r ∈ t.verificationCodes ∧ r.id ≠ id ∨
        r = { row with code, expiresAt, number := t.issued.length } := by
    intro r hr
    obtain ⟨q, hq, rfl⟩ := List.mem_map.mp hr
    split
    next hqid =>
      obtain rfl := h.id_inj q hq row hrowmem (hqid.trans hrowid.symm)
      exact .inr rfl
    next hqid => exact .inl ⟨hq, hqid⟩
  have hnew {r : VerificationCode} (hr : r ∈ t.verificationCodes) : t.issued.length ≠ r.number :=
    (Nat.ne_of_lt (h.number_lt hr)).symm
  refine ⟨⟨h.numbered_append _ _ _, ?_, ?_, ?_, ?_, ?_⟩, List.prefix_append _ _, List.prefix_rfl,
    ?_, (Evolves.refl t).emails⟩
  · intro r hr
    rcases hrows r hr with ⟨hr, -⟩ | rfl
    · exact List.mem_append_left _ (h.phones r hr)
    · exact List.mem_append_right _ List.mem_cons_self
  · intro r hr
    rw [List.length_append]
    rcases hrows r hr with ⟨hr, -⟩ | rfl
    · exact Nat.lt_succ_of_lt (h.ids r hr)
    · exact Nat.lt_succ_of_lt (h.ids row hrowmem)
  · intro r hr q hq heq
    rcases hrows r hr with ⟨hr, hrid⟩ | rfl <;> rcases hrows q hq with ⟨hq, hqid⟩ | rfl
    · exact h.id_inj r hr q hq heq
    · exact absurd (heq.trans hrowid) hrid
    · exact absurd (heq.symm.trans hrowid) hqid
    · rfl
  · intro r hr q hq heq
    rcases hrows r hr with ⟨hr, -⟩ | rfl <;> rcases hrows q hq with ⟨hq, -⟩ | rfl
    · exact h.number_inj r hr q hq heq
    · exact absurd heq.symm (hnew hr)
    · exact absurd heq (hnew hq)
    · rfl
  · exact fun r hr => ⟨List.mem_append_left _ (h.emails r hr).1, (h.emails r hr).2⟩
  · intro r hr
    rcases hrows r hr with ⟨hr, -⟩ | rfl
    · exact .inl hr
    · exact .inr (Nat.le_refl _)

theorem insertEmailCode {email : String} {code : Code} {createdAt expiresAt : Time}
    (hcode : Plain code)
    (hu : (Write.insertEmailCode email code createdAt expiresAt).apply t = some u) :
    Rows u ∧ Evolves t u := by
  rw [Write.apply] at hu
  split at hu
  · cases hu
  cases hu
  refine ⟨⟨h.numbered_append _ _ _, ?_, ?_, h.id_inj, h.number_inj, ?_⟩, List.prefix_append _ _,
    List.prefix_rfl, (Evolves.refl t).phones, ?_⟩
  · exact fun r hr => List.mem_append_left _ (h.phones r hr)
  · intro r hr
    rw [List.length_append]
    exact Nat.lt_succ_of_lt (h.ids r hr)
  · intro r hr
    rcases List.mem_cons.mp hr with rfl | hr
    · exact ⟨List.mem_append_right _ List.mem_cons_self, hcode⟩
    · exact ⟨List.mem_append_left _ (h.emails r hr).1, (h.emails r hr).2⟩
  · intro r hr
    rcases List.mem_cons.mp hr with rfl | hr
    · exact .inl (Nat.le_refl _)
    · exact .inr ⟨r, hr, rfl, id⟩

theorem useEmailCode {id : Nat} {usedAt : Time}
    (hu : (Write.useEmailCode id usedAt).apply t = some u) : Rows u ∧ Evolves t u := by
  cases hu
  refine ⟨⟨h.numbered, h.phones, h.ids, h.id_inj, h.number_inj, ?_⟩, List.prefix_rfl,
    List.prefix_rfl, (Evolves.refl t).phones, ?_⟩
  all_goals
    intro r hr
    obtain ⟨q, hq, rfl⟩ := List.mem_map.mp hr
  · split
    · exact h.emails q hq
    · exact h.emails q hq
  · refine .inr ⟨q, hq, ?_⟩
    split
    · exact ⟨rfl, fun _ => rfl⟩
    · exact ⟨rfl, fun hused => hused⟩

theorem apply (hw : w.PlainCode) (hu : w.apply t = some u) : Rows u ∧ Evolves t u := by
  by_cases husers : w.OnUsers
  · obtain ⟨users, rfl⟩ := husers.apply_eq hu
    exact ⟨h.withUsers users, { Evolves.refl t with }⟩
  cases w with
  | deleteExpired now =>
    cases hu
    exact ⟨h.filter _, .filter _⟩
  | insertVerificationCode phone code expiresAt => exact h.insertVerificationCode hu
  | renewVerificationCode id code expiresAt => exact h.renewVerificationCode hu
  | deleteVerificationCode id =>
    cases hu
    exact ⟨h.filter _, .filter _⟩
  | insertEmailCode email code createdAt expiresAt => exact h.insertEmailCode hw hu
  | useEmailCode id usedAt => exact h.useEmailCode hu
  | insertUser | setEmail | setPhone | setPassword => exact absurd trivial husers

theorem applyAll {ws : List Write} (hws : ∀ w ∈ ws, w.PlainCode)
    (hu : ws.foldlM Write.apply t = some u) : Rows u ∧ Evolves t u := by
  induction ws generalizing t with
  | nil =>
    cases hu
    exact ⟨h, .refl _⟩
  | cons w ws ih =>
    rw [List.foldlM_cons] at hu
    obtain ⟨v, hv, hu⟩ := Option.bind_eq_some_iff.mp hu
    obtain ⟨hrows, hevolves⟩ := h.apply (hws w List.mem_cons_self) hv
    obtain ⟨hrows, hlater⟩ := ih hrows (fun w hw => hws w (List.mem_cons_of_mem _ hw)) hu
    exact ⟨hrows, hevolves.trans hlater⟩

theorem around {ws : List Write} (hws : ∀ w ∈ ws, w.PlainCode) (hw : w ∈ ws)
    (hu : ws.foldlM Write.apply t = some u) :
    ∃ v v', Evolves t v ∧ w.apply v = some v' ∧ Evolves v v' ∧ Evolves v' u := by
  obtain ⟨before, after, rfl⟩ := List.mem_iff_append.mp hw
  rw [List.foldlM_append] at hu
  obtain ⟨v, hv, hu⟩ := Option.bind_eq_some_iff.mp hu
  rw [List.foldlM_cons] at hu
  obtain ⟨v', hv', hu⟩ := Option.bind_eq_some_iff.mp hu
  obtain ⟨hrows, hbefore⟩ := h.applyAll (fun w hw => hws w (List.mem_append_left _ hw)) hv
  obtain ⟨hrows, hmid⟩ := hrows.apply (hws w (by simp)) hv'
  obtain ⟨-, hafter⟩ := hrows.applyAll (fun w hw => hws w (by simp [hw])) hu
  exact ⟨v, v', hbefore, hv', hmid, hafter⟩

theorem deleted {ws : List Write} (hws : ∀ w ∈ ws, w.PlainCode) {id : Nat}
    (hw : .deleteVerificationCode id ∈ ws) (hu : ws.foldlM Write.apply t = some u) :
    ∀ r ∈ u.verificationCodes, r.id = id → t.issued.length ≤ r.number := by
  obtain ⟨v, v', hbefore, hv', hmid, hafter⟩ := h.around hws hw hu
  intro r hr hid
  rcases hafter.phones r hr with hr | hr
  · cases hv'
    simp [hid] at hr
  · exact (hbefore.trans hmid).issued.length_le.trans hr

theorem used {ws : List Write} (hws : ∀ w ∈ ws, w.PlainCode) {id : Nat} {usedAt : Time}
    (hw : .useEmailCode id usedAt ∈ ws) (hu : ws.foldlM Write.apply t = some u) :
    ∀ r ∈ u.emailCodes, r.id = id → r.usedAt.isSome ∨ t.issued.length ≤ r.id := by
  obtain ⟨v, v', hbefore, hv', hmid, hafter⟩ := h.around hws hw hu
  intro r hr hid
  rcases hafter.emails r hr with hr | ⟨q, hq, hissue, hused⟩
  · exact .inr ((hbefore.trans hmid).issued.length_le.trans hr)
  · have hqid : q.id = id := (congrArg Issue.number hissue).trans hid
    cases hv'
    obtain ⟨p, hp, rfl⟩ := List.mem_map.mp hq
    left
    apply hused
    by_cases hpid : p.id = id
    · rw [if_pos hpid]
      rfl
    · rw [if_neg hpid] at hqid
      exact absurd hqid hpid

end Rows

end Acps.Account
