import Acps.Account.Tokens
import Acps.Lib.Slots

/-!
The tokens of a user die with its credentials where no login or refresh overlaps their end, and
where a password that is changed takes the tokens with it.
-/

namespace Acps.Account.Tokens

open ReadCommitted

def Tables.live (t : Tables) : Bool :=
  t.user.accessToken.any t.acceptsAccess || t.user.refreshToken.any t.acceptsRefresh

def Update.clears (u : Update) : Prop :=
  u.accessToken = some none ∧ u.refreshToken = some none ∧ u.tokenExpiresAt = some none

def Unrepeated (c : Changes) (t : Tables) : Prop :=
  ∀ i ∈ c.issue, ∀ token ∈ i.tokens, token ∉ tokens t.committed

/-- No logout or change of the password has committed since the tokens of a login were made; since
a refresh began the credentials have not ended and its token was not exchanged; and a change of
the password clears the tokens or finds none that are accepted. -/
def Careful (c : Changes) (t : Tables) : Prop :=
  match c.deed with
  | .loggedIn i => ∀ e ∈ t.committed.drop i.created, e.deed ≠ .loggedOut ∧ e.deed ≠ .passwordChanged
  | .refreshed token _ => ∀ e ∈ t.committed.drop c.since, ¬ e.deed.ends ∧ e.exchanged ≠ some token
  | .passwordChanged => c.update.clears ∨ t.live = false
  | .requested | .loggedOut | .deactivated => True

def Tables.Gone (t : Tables) (token : Token) : Prop :=
  t.user.accessToken ≠ some token ∧ t.user.refreshToken ≠ some token

def Tables.Dead (t : Tables) (token : Token) : Prop :=
  t.user.isActive = false ∨ token.exp ≤ t.now ∨ t.Gone token

structure Issue.Shaped (i : Issue) : Prop where
  access : i.access.type = some .access
  refresh : i.refresh.type = some .refresh
  expiresAt : i.expiresAt = i.access.exp

def Tables.Paired (t : Tables) : Prop :=
  t.user.accessToken = none ∧ t.user.refreshToken = none ∧ t.user.tokenExpiresAt = none ∨
    ∃ i, (issues t.committed).getLast? = some i ∧ t.user.accessToken = some i.access ∧
      t.user.refreshToken = some i.refresh ∧ t.user.tokenExpiresAt = some i.expiresAt

structure Consistent (t : Tables) : Prop where
  paired : t.Paired
  shaped : ∀ i ∈ issues t.committed, i.Shaped
  unique : (tokens t.committed).Nodup
  known : ∀ token ∈ t.committed.filterMap Changes.exchanged, token ∈ tokens t.committed
  spent : ∀ token ∈ t.committed.filterMap Changes.exchanged, t.Gone token
  once : (t.committed.filterMap Changes.exchanged).Nodup
  inactive : ∀ e ∈ t.committed, e.deed = .deactivated → t.user.isActive = false
  timely : ∀ (k : Nat) (c : Changes), t.committed[k]? = some c → ∀ i ∈ c.issue,
    ∀ (j : Nat) (e : Changes), t.committed[j]? = some e → i.created ≤ j → j < k →
      e.deed ≠ .loggedOut ∧ e.deed ≠ .passwordChanged
  ended : ∀ (j : Nat) (e : Changes), t.committed[j]? = some e → e.deed.ends →
    ∀ i ∈ issues t.committed, i.created ≤ j → ∀ token ∈ i.tokens,
      t.Dead token ∧ ∀ d ∈ t.committed.drop (j + 1), d.exchanged ≠ some token

structure Evolves (s t : Tables) : Prop where
  committed : s.committed <+: t.committed
  inactive : s.user.isActive = false → t.user.isActive = false
  gone : ∀ token ∈ tokens s.committed, s.Gone token → t.Gone token

structure Checked (committed : List Changes) (since : Nat) (token : Token) : Prop where
  issued : token ∈ tokens committed
  unspent : token ∉ (committed.take since).filterMap Changes.exchanged
  later : ∀ (j : Nat) (e : Changes), j < since → committed[j]? = some e → e.deed.ends →
    ∀ i ∈ issues committed, token ∈ i.tokens → j < i.created

structure Update.Issues (u : Update) (i : Issue) : Prop where
  accessToken : u.accessToken = some (some i.access)
  refreshToken : u.refreshToken = some (some i.refresh)
  tokenExpiresAt : u.tokenExpiresAt = some (some i.expiresAt)
  isActive : u.isActive = none

structure Update.Keeps (u : Update) : Prop where
  accessToken : u.accessToken = none
  refreshToken : u.refreshToken = none
  tokenExpiresAt : u.tokenExpiresAt = none

def Ready (t : Tables) (c : Changes) : Prop :=
  match c.deed with
  | .requested => c.update.Keeps ∧ c.update.isActive = none
  | .loggedIn i => c.update.Issues i ∧ i.Shaped
  | .refreshed token i => c.update.Issues i ∧ i.Shaped ∧ ∃ committed, committed <+: t.committed ∧
    c.since ≤ committed.length ∧ i.created = committed.length ∧ Checked committed c.since token
  | .loggedOut => c.update.clears ∧ c.update.isActive = none
  | .passwordChanged => (c.update.Keeps ∨ c.update.clears) ∧ c.update.isActive = none
  | .deactivated => c.update.Keeps ∧ c.update.isActive = some false

section Logs

variable {committed : List Changes} {c : Changes} {token : Token} {i : Issue}

theorem issues_append (committed : List Changes) (c : Changes) :
    issues (committed ++ [c]) = issues committed ++ c.issue.toList := by
  unfold issues
  rw [List.filterMap_append]
  cases hissue : c.issue with
  | none => simp [hissue]
  | some i => simp [hissue]

theorem mem_issues : i ∈ issues committed ↔ ∃ (k : Nat) (c : Changes), committed[k]? = some c ∧
    i ∈ c.issue := by
  unfold issues
  rw [List.mem_filterMap]
  constructor
  · rintro ⟨c, hc, hi⟩
    obtain ⟨k, hk⟩ := List.mem_iff_getElem?.mp hc
    exact ⟨k, c, hk, hi⟩
  · rintro ⟨k, c, hk, hi⟩
    exact ⟨c, List.mem_of_getElem? hk, hi⟩

theorem mem_tokens : token ∈ tokens committed ↔ ∃ i ∈ issues committed, token ∈ i.tokens :=
  List.mem_flatMap

theorem exchanged_append (committed : List Changes) (c : Changes) :
    (committed ++ [c]).filterMap Changes.exchanged =
      committed.filterMap Changes.exchanged ++ c.exchanged.toList := by
  rw [List.filterMap_append]
  cases hexchanged : c.exchanged with
  | none => simp [hexchanged]
  | some token => simp [hexchanged]

theorem issues_mono {committed' : List Changes} (h : committed <+: committed') (hi : i ∈ issues committed) :
    i ∈ issues committed' := by
  obtain ⟨c, hc, hi⟩ := List.mem_filterMap.mp hi
  exact List.mem_filterMap.mpr ⟨c, h.subset hc, hi⟩

theorem tokens_mono {committed' : List Changes} (h : committed <+: committed')
    (htoken : token ∈ tokens committed) : token ∈ tokens committed' := by
  obtain ⟨i, hi, htoken⟩ := mem_tokens.mp htoken
  exact mem_tokens.mpr ⟨i, issues_mono h hi, htoken⟩

theorem getElem?_of_prefix {committed' : List Changes} (h : committed <+: committed') {k : Nat}
    (hk : committed'[k]? = some c) (hlt : k < committed.length) : committed[k]? = some c := by
  obtain ⟨rest, rfl⟩ := h
  rwa [List.getElem?_append_left hlt] at hk

theorem mem_drop_of_getElem? {j n : Nat} (h : committed[j]? = some c) (hn : n ≤ j) :
    c ∈ committed.drop n := by
  apply List.mem_of_getElem? (i := j - n)
  rw [List.getElem?_drop]
  rwa [Nat.add_sub_cancel' hn]

end Logs

section Dead

variable {s t u : Tables} {c : Changes} {token : Token} {i : Issue}

theorem accepts_of_dead (h : t.Dead token) :
    t.acceptsAccess token = false ∧ t.acceptsRefresh token = false := by
  unfold Tables.acceptsAccess Tables.acceptsRefresh Token.decodes User.holds
  rcases h with hinactive | hexpired | ⟨haccess, hrefresh⟩
  · simp [hinactive]
  · simp [Nat.not_lt.mpr hexpired]
  · simp [haccess, hrefresh]

theorem dead_of_not_live (h : Consistent t) (hlive : t.live = false) (token : Token) :
    t.Dead token := by
  obtain ⟨haccess, hrefresh⟩ := Bool.or_eq_false_iff.mp hlive
  rcases h.paired with ⟨hnone, hnone', -⟩ | ⟨i, hi, hsome, hsome', hexpires⟩
  · refine .inr (.inr ⟨?_, ?_⟩)
    · rw [hnone]
      exact fun h => by cases h
    · rw [hnone']
      exact fun h => by cases h
  · have hshaped := h.shaped i (List.mem_of_getLast? hi)
    by_contra hdead
    obtain ⟨hactive, hvalid, hstored⟩ : t.user.isActive = true ∧ t.now < token.exp ∧ ¬ t.Gone token := by
      unfold Tables.Dead at hdead
      simpa [not_or] using hdead
    have hequal : token = i.access ∨ token = i.refresh := by
      by_contra hne
      obtain ⟨hne, hne'⟩ := not_or.mp hne
      refine hstored ⟨?_, ?_⟩
      · rw [hsome]
        exact fun h => hne (Option.some.inj h).symm
      · rw [hsome']
        exact fun h => hne' (Option.some.inj h).symm
    rcases hequal with rfl | rfl
    · rw [hsome, Option.any_some] at haccess
      have hle : t.now ≤ i.expiresAt := hshaped.expiresAt ▸ Nat.le_of_lt hvalid
      simp [Tables.acceptsAccess, Token.decodes, Token.isAccess, User.holds, hvalid, hshaped.access,
        hactive, hsome, hexpires, hle] at haccess
    · rw [hsome', Option.any_some] at hrefresh
      simp [Tables.acceptsRefresh, Token.decodes, hvalid, hshaped.refresh, hactive, hsome'] at hrefresh

def Changes.commit (c : Changes) (t : Tables) : Tables :=
  { t with user := c.update.apply t.user, committed := t.committed ++ [c] }

theorem commit_inactive (hactive : c.update.isActive = none ∨ c.update.isActive = some false)
    (h : t.user.isActive = false) : (c.commit t).user.isActive = false := by
  change c.update.isActive.getD t.user.isActive = false
  rcases hactive with hactive | hactive
  · rw [hactive]
    exact h
  · rw [hactive]
    rfl

theorem gone_of_clears (h : c.update.clears) (token : Token) : (c.commit t).Gone token := by
  obtain ⟨haccess, hrefresh, -⟩ := h
  refine ⟨?_, ?_⟩
  · change c.update.accessToken.getD t.user.accessToken ≠ some token
    rw [haccess]
    exact fun h => by cases h
  · change c.update.refreshToken.getD t.user.refreshToken ≠ some token
    rw [hrefresh]
    exact fun h => by cases h

theorem gone_commit (htokens : c.update.Keeps ∨ c.update.clears) (h : t.Gone token) :
    (c.commit t).Gone token := by
  rcases htokens with hkeeps | hclears
  · refine ⟨?_, ?_⟩
    · change c.update.accessToken.getD t.user.accessToken ≠ some token
      rw [hkeeps.accessToken]
      exact h.1
    · change c.update.refreshToken.getD t.user.refreshToken ≠ some token
      rw [hkeeps.refreshToken]
      exact h.2
  · exact gone_of_clears hclears token

theorem Tables.Dead.commit (htokens : c.update.Keeps ∨ c.update.clears)
    (hactive : c.update.isActive = none ∨ c.update.isActive = some false) (h : t.Dead token) :
    (c.commit t).Dead token := by
  rcases h with hinactive | hexpired | hgone
  · exact .inl (commit_inactive hactive hinactive)
  · exact .inr (.inl hexpired)
  · exact .inr (.inr (gone_commit htokens hgone))

theorem gone_of_issues (hupdate : c.update.Issues i)
    (hfresh : ∀ token ∈ i.tokens, token ∉ tokens t.committed) (htoken : token ∈ tokens t.committed) :
    (c.commit t).Gone token := by
  refine ⟨?_, ?_⟩
  · change c.update.accessToken.getD t.user.accessToken ≠ some token
    rw [hupdate.accessToken]
    rintro ⟨⟩
    exact hfresh i.access (by simp [Issue.tokens]) htoken
  · change c.update.refreshToken.getD t.user.refreshToken ≠ some token
    rw [hupdate.refreshToken]
    rintro ⟨⟩
    exact hfresh i.refresh (by simp [Issue.tokens]) htoken

end Dead

section Commit

variable {s t u : Tables} {c : Changes} {token : Token} {i : Issue}

theorem getElem?_commit {j : Nat} {e : Changes} :
    (c.commit t).committed[j]? = some e ↔ t.committed[j]? = some e ∨ j = t.committed.length ∧ c = e :=
  Slots.getElem?_concat_eq_some

theorem Consistent.append (h : Consistent t) (hissue : c.issue = none) (hexchanged : c.exchanged = none)
    (htokens : c.update.Keeps ∨ c.update.clears)
    (hactive : c.update.isActive = none ∨ c.update.isActive = some false)
    (hdeactivated : c.deed = .deactivated → c.update.isActive = some false)
    (hdead : c.deed.ends → ∀ token, (c.commit t).Dead token) : Consistent (c.commit t) := by
  have hissues : issues (c.commit t).committed = issues t.committed := by
    change issues (t.committed ++ [c]) = _
    rw [issues_append, hissue]
    exact List.append_nil _
  have htokens' : tokens (c.commit t).committed = tokens t.committed := by
    unfold tokens
    rw [hissues]
  have hexchanged' : (c.commit t).committed.filterMap Changes.exchanged =
      t.committed.filterMap Changes.exchanged := by
    change (t.committed ++ [c]).filterMap Changes.exchanged = _
    rw [exchanged_append, hexchanged]
    exact List.append_nil _
  refine ⟨?_, ?_, ?_, ?_, ?_, ?_, ?_, ?_, ?_⟩
  · unfold Tables.Paired
    rw [hissues]
    rcases htokens with hkeeps | ⟨haccess, hrefresh, hexpires⟩
    · change (c.update.accessToken.getD _ = none ∧ c.update.refreshToken.getD _ = none ∧
        c.update.tokenExpiresAt.getD _ = none) ∨ ∃ i, _ ∧ c.update.accessToken.getD _ = _ ∧
          c.update.refreshToken.getD _ = _ ∧ c.update.tokenExpiresAt.getD _ = _
      rw [hkeeps.accessToken, hkeeps.refreshToken, hkeeps.tokenExpiresAt]
      exact h.paired
    · refine .inl ?_
      change c.update.accessToken.getD _ = none ∧ c.update.refreshToken.getD _ = none ∧
        c.update.tokenExpiresAt.getD _ = none
      rw [haccess, hrefresh, hexpires]
      exact ⟨rfl, rfl, rfl⟩
  · rw [hissues]
    exact h.shaped
  · rw [htokens']
    exact h.unique
  · rw [hexchanged', htokens']
    exact h.known
  · rw [hexchanged']
    exact fun token htoken => gone_commit htokens (h.spent token htoken)
  · rw [hexchanged']
    exact h.once
  · intro e he hdeed
    rcases List.mem_append.mp he with he | he
    · exact commit_inactive hactive (h.inactive e he hdeed)
    · obtain rfl := List.mem_singleton.mp he
      change e.update.isActive.getD _ = false
      rw [hdeactivated hdeed]
      rfl
  · intro k d hd i hi j e he hcreated hlt
    rcases getElem?_commit.mp hd with hd | ⟨-, rfl⟩
    · have hk : k < t.committed.length := (List.getElem?_eq_some_iff.mp hd).1
      rcases getElem?_commit.mp he with he | ⟨rfl, -⟩
      · exact h.timely k d hd i hi j e he hcreated hlt
      · omega
    · rw [hissue] at hi
      cases hi
  · intro j e he hends i hi hcreated token htoken
    rw [hissues] at hi
    rcases getElem?_commit.mp he with he | ⟨rfl, rfl⟩
    · obtain ⟨hdead', hlater⟩ := h.ended j e he hends i hi hcreated token htoken
      refine ⟨hdead'.commit htokens hactive, fun d hd => ?_⟩
      have hlt : j + 1 ≤ t.committed.length := (List.getElem?_eq_some_iff.mp he).1
      change d ∈ (t.committed ++ [c]).drop (j + 1) at hd
      rw [List.drop_append_of_le_length hlt] at hd
      rcases List.mem_append.mp hd with hd | hd
      · exact hlater d hd
      · obtain rfl := List.mem_singleton.mp hd
        rw [hexchanged]
        exact fun h => by cases h
    · refine ⟨hdead hends token, fun d hd => ?_⟩
      change d ∈ (t.committed ++ [c]).drop (t.committed.length + 1) at hd
      rw [List.drop_eq_nil_of_le (by simp)] at hd
      cases hd

theorem Consistent.issue (h : Consistent t) (hissue : c.issue = some i) (hends : ¬ c.deed.ends)
    (hshaped : i.Shaped) (hupdate : c.update.Issues i)
    (hfresh : ∀ token ∈ i.tokens, token ∉ tokens t.committed)
    (hexchanged : ∀ token ∈ c.exchanged, token ∈ tokens t.committed ∧
      token ∉ t.committed.filterMap Changes.exchanged ∧
      ∀ (j : Nat) (e : Changes), t.committed[j]? = some e → e.deed.ends →
        ∀ i' ∈ issues t.committed, token ∈ i'.tokens → j < i'.created)
    (htimely : ∀ e ∈ t.committed.drop i.created, e.deed ≠ .loggedOut ∧ e.deed ≠ .passwordChanged) :
    Consistent (c.commit t) := by
  have hissues : issues (c.commit t).committed = issues t.committed ++ [i] := by
    change issues (t.committed ++ [c]) = _
    rw [issues_append, hissue]
    rfl
  have htokens : tokens (c.commit t).committed = tokens t.committed ++ i.tokens := by
    unfold tokens
    rw [hissues, List.flatMap_append, List.flatMap_singleton]
  have hexchanged' : (c.commit t).committed.filterMap Changes.exchanged =
      t.committed.filterMap Changes.exchanged ++ c.exchanged.toList := exchanged_append _ _
  have hgone (token : Token) (htoken : token ∈ tokens t.committed) : (c.commit t).Gone token :=
    gone_of_issues hupdate hfresh htoken
  refine ⟨?_, ?_, ?_, ?_, ?_, ?_, ?_, ?_, ?_⟩
  · refine .inr ⟨i, ?_, ?_, ?_, ?_⟩
    · rw [hissues, List.getLast?_concat]
    · change c.update.accessToken.getD _ = _
      rw [hupdate.accessToken]
      rfl
    · change c.update.refreshToken.getD _ = _
      rw [hupdate.refreshToken]
      rfl
    · change c.update.tokenExpiresAt.getD _ = _
      rw [hupdate.tokenExpiresAt]
      rfl
  · rw [hissues]
    intro i' hi'
    rcases List.mem_append.mp hi' with hi' | hi'
    · exact h.shaped i' hi'
    · rwa [List.mem_singleton.mp hi']
  · rw [htokens]
    refine List.nodup_append.mpr ⟨h.unique, ?_, fun a ha b hb heq => hfresh b hb (heq ▸ ha)⟩
    have hne : i.access ≠ i.refresh := by
      intro heq
      have htype := hshaped.refresh
      rw [← heq, hshaped.access] at htype
      cases htype
    simpa [Issue.tokens] using hne
  · rw [hexchanged', htokens]
    intro token htoken
    rcases List.mem_append.mp htoken with htoken | htoken
    · exact List.mem_append_left _ (h.known token htoken)
    · exact List.mem_append_left _ (hexchanged token (Option.mem_toList.mp htoken)).1
  · rw [hexchanged']
    intro token htoken
    rcases List.mem_append.mp htoken with htoken | htoken
    · exact hgone token (h.known token htoken)
    · exact hgone token (hexchanged token (Option.mem_toList.mp htoken)).1
  · rw [hexchanged']
    refine List.nodup_append.mpr ⟨h.once, ?_, fun a ha b hb heq => ?_⟩
    · cases c.exchanged with
      | none => exact List.nodup_nil
      | some token => simp
    · exact (hexchanged b (Option.mem_toList.mp hb)).2.1 (heq ▸ ha)
  · intro e he hdeed
    have hinactive : t.user.isActive = false := by
      rcases List.mem_append.mp he with he | he
      · exact h.inactive e he hdeed
      · obtain rfl := List.mem_singleton.mp he
        exact absurd (.inr (.inr hdeed)) hends
    exact commit_inactive (.inl hupdate.isActive) hinactive
  · intro k d hd i' hi' j e he hcreated hlt
    rcases getElem?_commit.mp he with he | ⟨rfl, -⟩
    · rcases getElem?_commit.mp hd with hd | ⟨-, rfl⟩
      · exact h.timely k d hd i' hi' j e he hcreated hlt
      · obtain rfl := Option.mem_unique hissue hi'
        exact htimely e (mem_drop_of_getElem? he hcreated)
    · have hk := (List.getElem?_eq_some_iff.mp hd).1
      change k < (t.committed ++ [c]).length at hk
      rw [List.length_append, List.length_singleton] at hk
      omega
  · intro j e he hends' i' hi' hcreated token htoken
    rcases getElem?_commit.mp he with he | ⟨-, rfl⟩
    · have hlt : j + 1 ≤ t.committed.length := (List.getElem?_eq_some_iff.mp he).1
      have hdrop (d : Changes) (hd : d ∈ (c.commit t).committed.drop (j + 1)) :
          d ∈ t.committed.drop (j + 1) ∨ d = c := by
        change d ∈ (t.committed ++ [c]).drop (j + 1) at hd
        rw [List.drop_append_of_le_length hlt] at hd
        exact (List.mem_append.mp hd).imp_right List.mem_singleton.mp
      rw [hissues] at hi'
      rcases List.mem_append.mp hi' with hi' | hi'
      · obtain ⟨-, hlater⟩ := h.ended j e he hends' i' hi' hcreated token htoken
        refine ⟨.inr (.inr (hgone token (mem_tokens.mpr ⟨i', hi', htoken⟩))), fun d hd => ?_⟩
        rcases hdrop d hd with hd | heq
        · exact hlater d hd
        · intro hd
          have hafter := (hexchanged token (heq ▸ hd)).2.2 j e he hends' i' hi' htoken
          omega
      · obtain rfl := List.mem_singleton.mp hi'
        have hdeactivated : e.deed = .deactivated := by
          obtain ⟨hlogout, hpassword⟩ := htimely e (mem_drop_of_getElem? he hcreated)
          rcases hends' with hdeed | hdeed | hdeed
          · exact absurd hdeed hlogout
          · exact absurd hdeed hpassword
          · exact hdeed
        have hinactive := h.inactive e (List.mem_of_getElem? he) hdeactivated
        refine ⟨.inl (commit_inactive (.inl hupdate.isActive) hinactive), fun d hd hd' => ?_⟩
        rcases hdrop d hd with hd | heq
        · exact hfresh token htoken (h.known token
            (List.mem_filterMap.mpr ⟨d, List.mem_of_mem_drop hd, hd'⟩))
        · exact hfresh token htoken (hexchanged token (heq ▸ hd')).1
    · exact absurd hends' hends

end Commit

section Evolves

variable {s t u : Tables} {c : Changes}

theorem evolves_refl (t : Tables) : Evolves t t := ⟨List.prefix_refl _, id, fun _ _ => id⟩

theorem Evolves.trans (h : Evolves s t) (h' : Evolves t u) : Evolves s u :=
  ⟨h.committed.trans h'.committed, h'.inactive ∘ h.inactive, fun token htoken hgone =>
    h'.gone token (tokens_mono h.committed htoken) (h.gone token htoken hgone)⟩

theorem committed_commit (c : Changes) (t : Tables) : t.committed <+: (c.commit t).committed :=
  List.prefix_append _ _

theorem Consistent.commit_appends (h : Consistent t) (hissue : c.issue = none)
    (hexchanged : c.exchanged = none) (htokens : c.update.Keeps ∨ c.update.clears)
    (hactive : c.update.isActive = none ∨ c.update.isActive = some false)
    (hdeactivated : c.deed = .deactivated → c.update.isActive = some false)
    (hdead : c.deed.ends → ∀ token, (c.commit t).Dead token) :
    Consistent (c.commit t) ∧ Evolves t (c.commit t) :=
  ⟨h.append hissue hexchanged htokens hactive hdeactivated hdead, committed_commit c t,
    commit_inactive hactive, fun _ _ hgone => gone_commit htokens hgone⟩

theorem consistent_commit (h : Consistent t) (hready : Ready t c) (hdraws : Unrepeated c t)
    (hcareful : Careful c t) : Consistent (c.commit t) ∧ Evolves t (c.commit t) := by
  unfold Ready at hready
  unfold Careful at hcareful
  have hissues (i : Issue) (hissue : c.issue = some i) (hupdate : c.update.Issues i)
      (hconsistent : Consistent (c.commit t)) : Consistent (c.commit t) ∧ Evolves t (c.commit t) :=
    ⟨hconsistent, committed_commit c t, commit_inactive (.inl hupdate.isActive),
      fun _ htoken _ => gone_of_issues hupdate (hdraws i hissue) htoken⟩
  cases hdeed : c.deed with
  | requested =>
    simp only [hdeed] at hready
    refine h.commit_appends (by simp [Changes.issue, hdeed]) (by simp [Changes.exchanged, hdeed])
      (.inl hready.1) (.inl hready.2) (fun hother => ?_) fun hends => ?_
    · cases hdeed.symm.trans hother
    · rw [hdeed] at hends
      exact absurd hends (by decide)
  | loggedIn i =>
    simp only [hdeed] at hready hcareful
    have hi : c.issue = some i := by simp [Changes.issue, hdeed]
    refine hissues i hi hready.1 (h.issue hi ?_ hready.2 hready.1 (hdraws i hi) ?_ hcareful)
    · rw [hdeed]
      simp [Deed.ends]
    · intro token htoken
      simp [Changes.exchanged, hdeed] at htoken
  | refreshed token i =>
    simp only [hdeed] at hready hcareful
    obtain ⟨hupdate, hshaped, committed, hprefix, hsince, hcreated, hchecked⟩ := hready
    have hi : c.issue = some i := by simp [Changes.issue, hdeed]
    refine hissues i hi hupdate (h.issue hi ?_ hshaped hupdate (hdraws i hi) ?_ ?_)
    · rw [hdeed]
      simp [Deed.ends]
    · intro token' htoken'
      obtain rfl : token = token' := by simpa [Changes.exchanged, hdeed] using htoken'
      refine ⟨tokens_mono hprefix hchecked.issued, fun hmem => ?_, fun j e he hends i' hi' htoken => ?_⟩
      · obtain ⟨d, hd, hd'⟩ := List.mem_filterMap.mp hmem
        rw [← List.take_append_drop c.since t.committed] at hd
        rcases List.mem_append.mp hd with hd | hd
        · refine hchecked.unspent (List.mem_filterMap.mpr ⟨d, ?_, hd'⟩)
          obtain ⟨rest, hrest⟩ := hprefix
          rwa [← hrest, List.take_append_of_le_length hsince] at hd
        · exact (hcareful d hd).2 hd'
      · have hlt : j < c.since := by
          by_contra hge
          exact (hcareful e (mem_drop_of_getElem? he (Nat.le_of_not_lt hge))).1 hends
        have he' := getElem?_of_prefix hprefix he (Nat.lt_of_lt_of_le hlt hsince)
        apply hchecked.later j e hlt he' hends i' ?_ htoken
        obtain ⟨rest, hrest⟩ := hprefix
        by_contra hnot
        have hsplit : tokens t.committed = tokens committed ++ tokens rest := by
          rw [← hrest]
          simp [tokens, issues]
        have hnodup := h.unique
        rw [hsplit] at hnodup
        have hrest' : token ∈ tokens rest := by
          refine mem_tokens.mpr ⟨i', ?_, htoken⟩
          rw [← hrest] at hi'
          unfold issues at hi' ⊢
          rw [List.filterMap_append] at hi'
          exact (List.mem_append.mp hi').resolve_left hnot
        exact (List.nodup_append.mp hnodup).2.2 token hchecked.issued token hrest' rfl
    · intro e he
      have hle : c.since ≤ i.created := hcreated ▸ hsince
      have hdrop : e ∈ t.committed.drop c.since := (List.drop_sublist_drop_left _ hle).subset he
      have hnot := (hcareful e hdrop).1
      exact ⟨fun hdeed => hnot (.inl hdeed), fun hdeed => hnot (.inr (.inl hdeed))⟩
  | loggedOut =>
    simp only [hdeed] at hready
    refine h.commit_appends (by simp [Changes.issue, hdeed]) (by simp [Changes.exchanged, hdeed])
      (.inr hready.1) (.inl hready.2) (fun hother => ?_) fun _ token =>
        .inr (.inr (gone_of_clears hready.1 token))
    cases hdeed.symm.trans hother
  | passwordChanged =>
    simp only [hdeed] at hready hcareful
    refine h.commit_appends (by simp [Changes.issue, hdeed]) (by simp [Changes.exchanged, hdeed])
      hready.1 (.inl hready.2) (fun hother => ?_) fun _ token => ?_
    · cases hdeed.symm.trans hother
    · rcases hcareful with hclears | hlive
      · exact .inr (.inr (gone_of_clears hclears token))
      · exact (dead_of_not_live h hlive token).commit hready.1 (.inl hready.2)
  | deactivated =>
    simp only [hdeed] at hready
    refine h.commit_appends (by simp [Changes.issue, hdeed]) (by simp [Changes.exchanged, hdeed])
      (.inl hready.1) (.inr hready.2) (fun _ => hready.2) fun _ token => .inl ?_
    change c.update.isActive.getD _ = false
    rw [hready.2]
    rfl

end Evolves

end Acps.Account.Tokens
