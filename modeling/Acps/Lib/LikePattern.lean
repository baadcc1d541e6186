import Mathlib.Data.List.Infix

/-!
Patterns in which `%` stands for any text and `_` for any character, and a backslash escapes the
character after it.
-/

namespace Acps.LikePattern

inductive Token where
  | any
  | one
  | lit (c : Char)

def tokens : List Char → List Token
  | [] => []
  | '%' :: p => .any :: tokens p
  | '_' :: p => .one :: tokens p
  | '\\' :: e :: p => .lit e :: tokens p
  | c :: p => .lit c :: tokens p

def Token.matches : List Token → List Char → Bool
  | [], s => s.isEmpty
  | .any :: ts, s => s.tails.any (Token.matches ts)
  | .one :: _, [] => false
  | .one :: ts, _ :: s => Token.matches ts s
  | .lit _ :: _, [] => false
  | .lit c :: ts, d :: s => c = d ∧ Token.matches ts s

def like (pattern s : List Char) : Bool := Token.matches (tokens pattern) s

def specials : List Char := ['%', '_', '\\']

def Plain (p : List Char) : Prop := ∀ c ∈ p, c ∉ specials

instance (p : List Char) : Decidable (Plain p) :=
  List.decidableBAll (· ∉ specials) p

def sample : List Char → List Char
  | [] => []
  | '%' :: p => sample p
  | '_' :: p => '%' :: sample p
  | ['\\'] => ['%']
  | '\\' :: e :: p => e :: sample p
  | c :: p => c :: sample p

variable {p s : List Char}

section Equations

variable {ts : List Token} {c d : Char}

theorem matches_lit_nil : Token.matches (.lit c :: ts) [] = false := rfl

theorem matches_lit_cons :
    Token.matches (.lit c :: ts) (d :: s) = decide (c = d ∧ Token.matches ts s = true) := rfl

end Equations

theorem matches_any {ts : List Token} :
    Token.matches (.any :: ts) s = true ↔ ∃ t, t <:+ s ∧ Token.matches ts t = true := by
  change (s.tails.any (Token.matches ts)) = true ↔ _
  rw [List.any_eq_true]
  simp only [List.mem_tails]

theorem tokens_plain_cons {c : Char} (hc : c ∉ specials) : tokens (c :: p) = .lit c :: tokens p := by
  conv_lhs => unfold tokens
  split <;> simp_all [specials]

theorem like_prefix (hp : Plain p) : like (p ++ ['%']) s = true ↔ p <+: s := by
  unfold like
  induction p generalizing s with
  | nil => exact iff_of_true (matches_any.mpr ⟨[], s.nil_suffix, rfl⟩) s.nil_prefix
  | cons c p ih =>
    have ih {t : List Char} := ih (s := t) fun d hd => hp d (List.mem_cons_of_mem c hd)
    rw [List.cons_append, tokens_plain_cons (hp c List.mem_cons_self)]
    cases s with
    | nil => simp [matches_lit_nil]
    | cons d s => simp [matches_lit_cons, ih, List.cons_prefix_cons]

theorem like_plain (hp : Plain p) : like p s = true ↔ p = s := by
  unfold like
  induction p generalizing s with
  | nil => exact List.isEmpty_iff.trans eq_comm
  | cons c p ih =>
    have ih {t : List Char} := ih (s := t) fun d hd => hp d (List.mem_cons_of_mem c hd)
    rw [tokens_plain_cons (hp c List.mem_cons_self)]
    cases s with
    | nil => simp [matches_lit_nil]
    | cons d s => simp [matches_lit_cons, ih]

theorem like_infix (hp : Plain p) : like ('%' :: (p ++ ['%'])) s = true ↔ p <:+: s := by
  have hinit (t : List Char) := like_prefix (s := t) hp
  rw [List.infix_iff_prefix_suffix]
  apply matches_any.trans
  constructor
  · rintro ⟨t, ht, hlike⟩
    exact ⟨t, (hinit t).mp hlike, ht⟩
  · rintro ⟨t, hpre, ht⟩
    exact ⟨t, ht, (hinit t).mpr hpre⟩

theorem not_special {c : Char} (hpercent : c = '%' → False) (hunderscore : c = '_' → False)
    (hlone : c = '\\' → p = [] → False)
    (hescape : ∀ (e : Char) (q : List Char), c = '\\' → p = e :: q → False) : c ∉ specials := by
  intro hc
  rcases List.mem_cons.mp hc with hc | hc
  · exact hpercent hc
  · rcases List.mem_cons.mp hc with hc | hc
    · exact hunderscore hc
    · have hc := List.mem_singleton.mp hc
      cases p with
      | nil => exact hlone hc rfl
      | cons e q => exact hescape e q hc rfl

theorem like_sample (p : List Char) : like (p ++ ['%']) (sample p) = true := by
  unfold like
  fun_induction sample p with
  | case1 => rfl
  | case2 p ih => exact matches_any.mpr ⟨sample p, List.suffix_rfl, ih⟩
  | case3 p ih => exact ih
  | case4 => rfl
  | case5 e p ih =>
    change Token.matches (.lit e :: tokens (p ++ ['%'])) (e :: sample p) = true
    simpa [matches_lit_cons] using ih
  | case6 c p hpercent hunderscore hlone hescape ih =>
    rw [List.cons_append, tokens_plain_cons (not_special hpercent hunderscore hlone hescape)]
    simpa [matches_lit_cons] using ih

theorem length_sample_le (p : List Char) : (sample p).length ≤ p.length := by
  fun_induction sample p with
  | case1 => exact Nat.le_refl _
  | case2 p ih => exact Nat.le_succ_of_le ih
  | case3 p ih => exact Nat.succ_le_succ ih
  | case4 => exact Nat.le_refl _
  | case5 e p ih => exact Nat.le_succ_of_le (Nat.succ_le_succ ih)
  | case6 c p _ _ _ _ ih => exact Nat.succ_le_succ ih

theorem plain_of_sample (h : sample p = p) : Plain p := by
  fun_induction sample p with
  | case1 => exact fun c hc => by cases hc
  | case2 p ih =>
    have hlength := length_sample_le p
    rw [h, List.length_cons] at hlength
    omega
  | case3 p ih => cases (List.cons.inj h).1
  | case4 => cases (List.cons.inj h).1
  | case5 e p ih =>
    have hlength := congrArg List.length h
    have hle := length_sample_le p
    simp only [List.length_cons] at hlength
    omega
  | case6 c p hpercent hunderscore hlone hescape ih =>
    intro d hd
    rcases List.mem_cons.mp hd with rfl | hd
    · exact not_special hpercent hunderscore hlone hescape
    · exact ih (List.cons.inj h).2 d hd

theorem like_infix_sample (p : List Char) : like ('%' :: (p ++ ['%'])) (sample p) = true :=
  matches_any.mpr ⟨sample p, List.suffix_rfl, like_sample p⟩

theorem mem_sample {c : Char} (hc : c ∈ sample p) : c ∈ p ∨ c = '%' := by
  fun_induction sample p with
  | case1 => cases hc
  | case2 p ih => exact (ih hc).imp_left (List.mem_cons_of_mem _)
  | case3 p ih =>
    rcases List.mem_cons.mp hc with rfl | hc
    · exact .inr rfl
    · exact (ih hc).imp_left (List.mem_cons_of_mem _)
  | case4 => exact .inr (List.mem_singleton.mp hc)
  | case5 e p ih =>
    rcases List.mem_cons.mp hc with rfl | hc
    · exact .inl (by simp)
    · exact (ih hc).imp_left fun h => by simp [h]
  | case6 c' p _ _ _ _ ih =>
    rcases List.mem_cons.mp hc with rfl | hc
    · exact .inl List.mem_cons_self
    · exact (ih hc).imp_left (List.mem_cons_of_mem _)

end Acps.LikePattern
