import Acps.Account.OneAction
import Acps.Account.TokenLife

/-!
What a request of a user comes to is ready when it commits, so that a run keeps the invariant of
its tokens.
-/

namespace Acps.Account.Tokens

open ReadCommitted

section Requests

variable {P : Platform} {A : Auth} {s t : Tables} {began : Nat} {now : Time}

theorem justified_setPassword {password : String} {update : Update}
    (htokens : update.Keeps ∨ update.clears) (hactive : update.isActive = none) :
    (setPassword P began password update).Justified Consistent Evolves Ready s :=
  fun _ _ _ => ⟨htokens.imp (fun h => ⟨h.accessToken, h.refreshToken, h.tokenExpiresAt⟩) id, hactive⟩

theorem justified_requested :
    (finish began .requested .empty).Justified Consistent Evolves Ready s :=
  fun _ _ _ => ⟨⟨rfl, rfl, rfl⟩, rfl⟩

theorem justified_currentUser {token : Option Token} {missing : Txn} {found : User → Txn}
    (hmissing : ∀ t, missing.Justified Consistent Evolves Ready t)
    (hfound : ∀ t, Consistent t → t.user.accessToken.isSome →
      (found t.user).Justified Consistent Evolves Ready t) :
    (currentUser now token missing found).Justified Consistent Evolves Ready s := by
  unfold currentUser
  split
  · exact hmissing s
  · next token =>
    split
    · refine Program.justified_query.mpr fun t ht _ => ?_
      split
      · next hholds =>
        have hstored : t.user.accessToken = some token := by
          simp only [User.holds, decide_eq_true_eq] at hholds
          exact hholds.2.1
        apply hfound t ht
        rw [hstored]
        rfl
      · exact hmissing t
    · exact hmissing s

theorem clears_of_paired (h : t.Paired) (hsome : t.user.accessToken.isSome) :
    (Update.clear t.user).clears := by
  rcases h with ⟨hnone, -⟩ | ⟨i, -, haccess, hrefresh, hexpires⟩
  · rw [hnone] at hsome
    cases hsome
  · unfold Update.clears Update.clear
    simp [haccess, hrefresh, hexpires]

theorem keeps_or_clears (h : t.Paired) :
    (Update.clear t.user).Keeps ∨ (Update.clear t.user).clears := by
  rcases h with ⟨haccess, hrefresh, hexpires⟩ | ⟨i, hi, haccess, hrest⟩
  · refine .inl ⟨?_, ?_, ?_⟩
    · simp [Update.clear, haccess]
    · simp [Update.clear, hrefresh]
    · simp [Update.clear, hexpires]
  · refine .inr (clears_of_paired (.inr ⟨i, hi, haccess, hrest⟩) ?_)
    rw [haccess]
    rfl

theorem shaped_createUserToken (A : Auth) (draw : Draw) (t : Tables) :
    (createUserToken A draw t).Shaped := ⟨rfl, rfl, rfl⟩

theorem justified_loggedIn {draw : Draw} {hashedPassword : Option String} :
    (finish began (.loggedIn (createUserToken A draw t))
      { Update.issue (createUserToken A draw t) with hashedPassword }).Justified
        Consistent Evolves Ready s :=
  fun _ _ _ => ⟨⟨rfl, rfl, rfl, rfl⟩, shaped_createUserToken A draw t⟩

theorem checked_of_stored {token : Token} (hs : Consistent s) (ht : Consistent t) (h : Evolves s t)
    (hvalid : s.now < token.exp) (hactive : t.user.isActive = true)
    (hstored : t.user.refreshToken = some token) :
    Checked t.committed s.committed.length token := by
  have hissued : token ∈ tokens t.committed := by
    rcases ht.paired with ⟨-, hnone, -⟩ | ⟨i, hi, -, hsome, -⟩
    · cases hstored.symm.trans hnone
    · obtain rfl := Option.some.inj (hstored.symm.trans hsome)
      exact mem_tokens.mpr ⟨i, List.mem_of_getLast? hi, by simp [Issue.tokens]⟩
  have hnot (hknown : token ∈ tokens s.committed) : ¬ s.Gone token := fun hgone =>
    (h.gone token hknown hgone).2 hstored
  obtain ⟨rest, hrest⟩ := h.committed
  refine ⟨hissued, fun hmem => ?_, fun j e hlt he hends i hi htoken => ?_⟩
  · rw [← hrest, List.take_left] at hmem
    exact hnot (hs.known token hmem) (hs.spent token hmem)
  · by_contra hcreated
    obtain ⟨k, d, hd, hi⟩ := mem_issues.mp hi
    by_cases hk : k < s.committed.length
    · have hd' := getElem?_of_prefix h.committed hd hk
      have he' := getElem?_of_prefix h.committed he hlt
      have hi' : i ∈ issues s.committed := mem_issues.mpr ⟨k, d, hd', hi⟩
      obtain ⟨hdead, -⟩ := hs.ended j e he' hends i hi' (Nat.le_of_not_lt hcreated) token htoken
      rcases hdead with hinactive | hexpired | hgone
      · rw [h.inactive hinactive] at hactive
        cases hactive
      · exact absurd hvalid (Nat.not_lt.mpr hexpired)
      · exact hnot (mem_tokens.mpr ⟨i, hi', htoken⟩) hgone
    · obtain ⟨hlogout, hpassword⟩ :=
        ht.timely k d hd i hi j e he (Nat.le_of_not_lt hcreated) (by omega)
      rcases hends with hdeed | hdeed | hdeed
      · exact hlogout hdeed
      · exact hpassword hdeed
      · rw [ht.inactive e (List.mem_of_getElem? he) hdeed] at hactive
        cases hactive

theorem justified_refresh {token : Option Token} {draw : Draw} (hs : Consistent s) :
    (refreshAccessToken A s.committed.length s.now token draw).Justified Consistent Evolves Ready s := by
  unfold refreshAccessToken
  split
  · trivial
  · next token =>
    split
    · next hdecodes =>
      have hvalid : s.now < token.exp := of_decide_eq_true hdecodes.1
      refine Program.justified_query.mpr fun t ht hst => ?_
      split
      · next hstored =>
        have hchecked := checked_of_stored hs ht hst hvalid hstored.1 hstored.2
        intro u _ htu
        exact ⟨⟨rfl, rfl, rfl, rfl⟩, shaped_createUserToken A draw t, t.committed, htu.committed,
          hst.committed.length_le, rfl, hchecked⟩
      · trivial
    · trivial

theorem justified_request (request : Request) (hs : Consistent s) :
    (request.run P A s.committed.length s.now).Justified Consistent Evolves Ready s := by
  have hempty : Update.empty.Keeps ∨ Update.empty.clears := .inl ⟨rfl, rfl, rfl⟩
  have hraise (t : Tables) : (Program.raise : Txn).Justified Consistent Evolves Ready t := trivial
  unfold Request.run
  cases request with
  | authenticated token => exact justified_currentUser hraise fun _ _ _ => justified_requested
  | login password draw =>
    refine Program.justified_query.mpr fun t _ _ => ?_
    split
    · trivial
    · exact justified_loggedIn
  | loginPhone codeAccepted draw =>
    refine Program.justified_query.mpr fun t _ _ => ?_
    split
    · trivial
    · refine Program.justified_query.mpr fun u _ _ => ?_
      split
      · trivial
      · exact justified_loggedIn
  | refreshToken token draw => exact justified_refresh hs
  | logout token =>
    refine justified_currentUser (fun _ => justified_requested) fun t ht hsome => ?_
    exact fun _ _ _ => ⟨clears_of_paired ht.paired hsome, rfl⟩
  | updateUserPassword token oldPassword newPassword =>
    refine justified_currentUser hraise fun t _ _ => ?_
    refine Program.justified_query.mpr fun u _ _ => ?_
    split
    · trivial
    · split
      · trivial
      · split
        · trivial
        · exact justified_setPassword hempty rfl
  | updateUserPasswordByCode codeAccepted password =>
    refine Program.justified_query.mpr fun t _ _ => ?_
    split
    · trivial
    · refine Program.justified_query.mpr fun u _ _ => ?_
      split
      · trivial
      · exact justified_setPassword hempty rfl
  | resetPassword codeAccepted newPassword =>
    refine Program.justified_query.mpr fun t _ _ => Program.justified_query.mpr fun u _ _ => ?_
    split
    · trivial
    · exact justified_setPassword hempty rfl
  | resetPasswordByMail generated =>
    refine Program.justified_query.mpr fun t _ _ => ?_
    split
    · trivial
    · exact justified_setPassword hempty rfl
  | adminResetPassword newPassword =>
    refine Program.justified_query.mpr fun t ht _ => ?_
    split
    · trivial
    · exact justified_setPassword (keeps_or_clears ht.paired) rfl
  | deleteUser =>
    refine Program.justified_query.mpr fun t _ _ => ?_
    exact fun _ _ _ => ⟨⟨rfl, rfl, rfl⟩, rfl⟩

end Requests

section Runs

variable {P : Platform} {A : Auth} {t : Tables}

theorem guarantee (P : Platform) (A : Auth) :
    Guarantee ((service P A).guarded fun c t => Unrepeated c t ∧ Careful c t)
      Consistent Evolves Ready where
  refl := evolves_refl
  trans := fun _ _ _ h h' => h.trans h'
  started := fun request _ hs => justified_request request hs
  tick t h := by
    refine ⟨{ h with paired := h.paired, ended := fun j e he hends i hi hcreated token htoken => ?_ },
      List.prefix_refl _, id, fun _ _ => id⟩
    obtain ⟨hdead, hlater⟩ := h.ended j e he hends i hi hcreated token htoken
    exact ⟨hdead.imp_right fun h => h.imp_left Nat.le_succ_of_le, hlater⟩
  commit s t c hs hready happly := by
    obtain ⟨⟨hdraws, hcareful⟩, happly⟩ := guarded_apply_eq_some.mp happly
    obtain rfl : c.commit s = t := Option.some.inj happly
    exact consistent_commit hs hready hdraws hcareful

theorem consistent_initial (user : User) : Consistent (Tables.initial user) := by
  refine ⟨.inl ⟨rfl, rfl, rfl⟩, ?_, List.nodup_nil, ?_, ?_, List.nodup_nil, ?_, ?_, ?_⟩
  · intro i hi
    cases hi
  · intro token htoken
    cases htoken
  · intro token htoken
    cases htoken
  · intro e he
    cases he
  · intro k c hc
    cases hc
  · intro j e he
    cases he

theorem Consistent.mortal (h : Consistent t) : t.Mortal := by
  refine ⟨h.once, fun token haccepts => ?_, fun j e he hends i hi hcreated token htoken => ?_⟩
  · have hstored : t.user.accessToken = some token := by
      simp only [Tables.acceptsAccess, User.holds, decide_eq_true_eq] at haccepts
      exact haccepts.2.2.2.1
    rcases h.paired with ⟨hnone, -⟩ | ⟨i, hi, hsome, -⟩
    · cases hstored.symm.trans hnone
    · exact ⟨i, hi, Option.some.inj (hsome.symm.trans hstored)⟩
  · obtain ⟨hdead, hlater⟩ := h.ended j e he hends i hi hcreated token htoken
    obtain ⟨haccess, hrefresh⟩ := accepts_of_dead hdead
    exact ⟨haccess, hrefresh, hlater⟩

theorem tokens_mortal {user : User} {acts : List (Action Nat Request)} {s : State Nat Tables Changes}
    (hs : (requests P A).exec (.idle (Tables.initial user)) acts = some s)
    (hdraws : (requests P A).Meets (Commits Unrepeated) (.idle (Tables.initial user)) acts)
    (hcareful : (requests P A).Meets (Commits Careful) (.idle (Tables.initial user)) acts) :
    s.store.Mortal := by
  have hmeets : (requests P A).Meets (Commits fun c t => Unrepeated c t ∧ Careful c t)
      (.idle (Tables.initial user)) acts := by
    refine (requests P A).meets_of_invariant (I := fun _ => True) (fun _ _ _ _ _ _ => trivial) ?_
      trivial ((requests P A).meets_and hdraws hcareful)
    rintro s a - ⟨hC, hD⟩
    cases a with
    | next i => exact fun changes hi => ⟨hC changes hi, hD changes hi⟩
    | start | abort | tick => trivial
  have hsound : Sound Consistent Evolves Ready
      (State.idle (Tables.initial user) : State Nat Tables Changes) :=
    sound_idle (consistent_initial user)
  exact ((guarantee P A).sound_exec hsound hmeets hs).store.mortal

end Runs

instance (u : Update) : Decidable u.clears := inferInstanceAs (Decidable (_ ∧ _ ∧ _))

instance (c : Changes) (t : Tables) : Decidable (Unrepeated c t) :=
  inferInstanceAs (Decidable (∀ i ∈ c.issue, ∀ token ∈ i.tokens, token ∉ tokens t.committed))

instance (c : Changes) (t : Tables) : Decidable (Careful c t) := by
  unfold Careful
  cases c.deed with
  | loggedIn i =>
    exact inferInstanceAs (Decidable (∀ e ∈ t.committed.drop i.created,
      e.deed ≠ .loggedOut ∧ e.deed ≠ .passwordChanged))
  | refreshed token i =>
    exact inferInstanceAs (Decidable (∀ e ∈ t.committed.drop c.since,
      ¬ e.deed.ends ∧ e.exchanged ≠ some token))
  | passwordChanged => exact inferInstanceAs (Decidable (c.update.clears ∨ t.live = false))
  | requested | loggedOut | deactivated => exact instDecidableTrue

theorem not_mortal {t : Tables} {j : Nat} (hends : (t.committed[j]?).any (fun e => e.deed.ends) = true)
    (haccepted : (issues t.committed).any
      (fun i => i.created ≤ j ∧ t.acceptsAccess i.access = true) = true) : ¬ t.Mortal := by
  intro h
  obtain ⟨e, he, hends⟩ := (Option.any_eq_true _ _).mp hends
  obtain ⟨i, hi, haccepted⟩ := List.any_eq_true.mp haccepted
  obtain ⟨hcreated, haccepted⟩ := of_decide_eq_true haccepted
  have hdead := (h.ended j e he (of_decide_eq_true hends) i hi hcreated i.access
    (by simp [Issue.tokens])).1
  rw [hdead] at haccepted
  cases haccepted

namespace Sample

def auth : Auth where
  verifyPassword password hashedPassword := (hashedPassword = "hash of " ++ password, false)
  accessTokenExpire := 30
  refreshTokenExpire := 100

def user : User :=
  { email := some "user@example.org", hashedPassword := some "hash of Old-pass-1", accessToken := none
    refreshToken := none, tokenExpiresAt := none, isActive := true }

def access (jti : Nat) : Token := { jti, type := some .access, exp := 30 }

def refresh (jti : Nat) : Token := { jti, type := some .refresh, exp := 100 }

def alone (i : Nat) (r : Request) (statements : Nat) : List (Action Nat Request) :=
  .start i r :: List.replicate statements (.next i)

def loggedIn : List (Action Nat Request) :=
  alone 0 (.login "Old-pass-1" { access := 1, refresh := 2 }) 2

def careful : List (Action Nat Request) :=
  loggedIn ++ alone 1 (.refreshToken (some (refresh 2)) { access := 3, refresh := 4 }) 2 ++
    alone 2 (.adminResetPassword "New-pass-1") 2 ++
    alone 3 (.login "New-pass-1" { access := 5, refresh := 6 }) 2 ++
    alone 4 (.logout (some (access 5))) 2

def overlapping (r r' : Request) : List (Action Nat Request) :=
  [.start 1 r, .start 2 r', .next 1, .next 2, .next 2, .next 1]

def exchangedTwice : List (Action Nat Request) :=
  loggedIn ++ overlapping (.refreshToken (some (refresh 2)) { access := 3, refresh := 4 })
    (.refreshToken (some (refresh 2)) { access := 5, refresh := 6 })

def passwordChanged : List (Action Nat Request) :=
  loggedIn ++ alone 1 (.updateUserPassword (some (access 1)) "Old-pass-1" "New-pass-1") 3

def loggedOut : List (Action Nat Request) :=
  loggedIn ++ overlapping (.refreshToken (some (refresh 2)) { access := 3, refresh := 4 })
    (.logout (some (access 1)))

def adminReset : List (Action Nat Request) :=
  overlapping (.adminResetPassword "New-pass-1")
    (.login "Old-pass-1" { access := 1, refresh := 2 })

end Sample

theorem tokens_not_mortal :
    (∃ s, (requests .ascii Sample.auth).exec (.idle (Tables.initial Sample.user)) Sample.exchangedTwice =
      some s ∧ ¬ s.store.Mortal) ∧
    (∃ s, (requests .ascii Sample.auth).exec (.idle (Tables.initial Sample.user)) Sample.passwordChanged =
      some s ∧ ¬ s.store.Mortal) ∧
    (∃ s, (requests .ascii Sample.auth).exec (.idle (Tables.initial Sample.user)) Sample.loggedOut =
      some s ∧ ¬ s.store.Mortal) ∧
    ∃ s, (requests .ascii Sample.auth).exec (.idle (Tables.initial Sample.user)) Sample.adminReset =
      some s ∧ ¬ s.store.Mortal := by
  have houtlives (acts : List (Action Nat Request)) (j : Nat)
      (h : ((requests .ascii Sample.auth).exec (.idle (Tables.initial Sample.user)) acts).any
        (fun s => (s.store.committed[j]?).any (fun e => e.deed.ends) ∧ (issues s.store.committed).any
          (fun i => i.created ≤ j ∧ s.store.acceptsAccess i.access = true)) = true) :
      ∃ s, (requests .ascii Sample.auth).exec (.idle (Tables.initial Sample.user)) acts = some s ∧
        ¬ s.store.Mortal := by
    obtain ⟨s, hs, hend⟩ := (Option.any_eq_true _ _).mp h
    obtain ⟨hends, haccepted⟩ := of_decide_eq_true hend
    exact ⟨s, hs, not_mortal hends haccepted⟩
  refine ⟨?_, houtlives _ 1 (by decide +kernel), houtlives _ 1 (by decide +kernel),
    houtlives _ 1 (by decide +kernel)⟩
  have htwice : ((requests .ascii Sample.auth).exec (.idle (Tables.initial Sample.user))
      Sample.exchangedTwice).any
        (fun s => ¬ (s.store.committed.filterMap Changes.exchanged).Nodup) = true := by
    decide +kernel
  obtain ⟨s, hs, hend⟩ := (Option.any_eq_true _ _).mp htwice
  exact ⟨s, hs, fun h => of_decide_eq_true hend h.once⟩

theorem careful_tokens_mortal :
    ∃ s, (requests .ascii Sample.auth).exec (.idle (Tables.initial Sample.user)) Sample.careful = some s ∧
      s.store.committed.length = 5 ∧ s.store.Mortal := by
  have hruns : ((requests .ascii Sample.auth).exec (.idle (Tables.initial Sample.user))
      Sample.careful).any (fun s => s.store.committed.length = 5) = true := by
    decide +kernel
  obtain ⟨s, hs, hend⟩ := (Option.any_eq_true _ _).mp hruns
  refine ⟨s, hs, of_decide_eq_true hend, tokens_mortal hs ?_ ?_⟩
  · exact (requests .ascii Sample.auth).meets_of_check (fun _ _ h => of_decide_eq_true h)
      (show (requests .ascii Sample.auth).check (fun s a => decide (Commits Unrepeated s a))
        (.idle (Tables.initial Sample.user)) Sample.careful = true by decide +kernel)
  · exact (requests .ascii Sample.auth).meets_of_check (fun _ _ h => of_decide_eq_true h)
      (show (requests .ascii Sample.auth).check (fun s a => decide (Commits Careful s a))
        (.idle (Tables.initial Sample.user)) Sample.careful = true by decide +kernel)

end Acps.Account.Tokens
