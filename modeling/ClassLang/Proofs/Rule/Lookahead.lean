import ClassLang.Proofs.Rule.Script
/-!
What an evaluation looks at. Main statement: streams that agree in the tokens that an evaluation
takes and in the one after them are read alike, whatever comes later (`Evaluates.congr_take`).
-/

namespace ClassLang

namespace TokenStream

variable {s s' : TokenStream} {m n : Nat}

/-- What is left of a stream when so many tokens have been taken from it. -/
def drop : Nat → TokenStream → TokenStream
  | 0, s => s
  | n + 1, s => drop n s.advance

@[simp] theorem drop_zero (s : TokenStream) : s.drop 0 = s := rfl

@[simp] theorem drop_succ (s : TokenStream) (n : Nat) : s.drop (n + 1) = s.advance.drop n := rfl

@[simp] theorem take_zero (s : TokenStream) : s.take 0 = [] := rfl

@[simp] theorem take_succ (s : TokenStream) (n : Nat) :
    s.take (n + 1) = s.current :: s.advance.take n := rfl

@[simp] theorem length_take (s : TokenStream) (n : Nat) : (s.take n).length = n := by
  induction n generalizing s with
  | zero => rfl
  | succ n ih => rw [take_succ, List.length_cons, ih]

theorem drop_add (s : TokenStream) (m n : Nat) : s.drop (m + n) = (s.drop m).drop n := by
  induction m generalizing s with
  | zero => rw [Nat.zero_add, drop_zero]
  | succ m ih => rw [Nat.succ_add, drop_succ, drop_succ, ih]

theorem take_add (s : TokenStream) (m n : Nat) : s.take (m + n) = s.take m ++ (s.drop m).take n := by
  induction m generalizing s with
  | zero => rw [Nat.zero_add, drop_zero, take_zero, List.nil_append]
  | succ m ih => rw [Nat.succ_add, take_succ, take_succ, drop_succ, ih, List.cons_append]

theorem take_of_append (u k : List Token) (mark : EndMark) :
    (TokenStream.mk (u ++ k) mark).take u.length = u := by
  induction u with
  | nil => rfl
  | cons t u ih => exact congrArg (t :: ·) ih

theorem drop_of_append (u k : List Token) (mark : EndMark) :
    (TokenStream.mk (u ++ k) mark).drop u.length = ⟨k, mark⟩ := by
  induction u with
  | nil => rfl
  | cons t u ih => exact ih

theorem agree_of_take_add (h : s.take (m + n) = s'.take (m + n)) :
    s.take m = s'.take m ∧ (s.drop m).take n = (s'.drop m).take n := by
  rw [take_add, take_add] at h
  exact List.append_inj h (by simp)

theorem agree_of_take_succ (h : s.take (n + 1) = s'.take (n + 1)) :
    s.current = s'.current ∧ s.advance.take n = s'.advance.take n :=
  List.cons.inj h

theorem take_eq_of_le (h : s.take n = s'.take n) (hm : m ≤ n) : s.take m = s'.take m := by
  obtain ⟨k, rfl⟩ := Nat.exists_eq_add_of_le hm
  exact (agree_of_take_add h).1

theorem pending_eq_take_append (h : n ≤ s.pending.length) :
    s.pending = s.take n ++ (s.drop n).pending := by
  induction n generalizing s with
  | zero => rfl
  | succ n ih =>
      have hs := pending_eq_cons_of_ne_nil (List.ne_nil_of_length_pos (Nat.zero_lt_of_lt h))
      have hadvance : n ≤ s.advance.pending.length := by
        rw [hs] at h
        exact Nat.le_of_succ_le_succ h
      calc
        s.pending = s.current :: s.advance.pending := hs
        _ = s.current :: (s.advance.take n ++ (s.advance.drop n).pending) := by
          rw [← ih hadvance]

/-- The stream with so many of the end marks in the list that come after it anyway. -/
def padded (n : Nat) (s : TokenStream) : TokenStream :=
  ⟨s.pending ++ List.replicate n s.endMark.token, s.endMark⟩

theorem take_padded (s : TokenStream) (n m : Nat) : (s.padded n).take m = s.take m := by
  induction m generalizing s n with
  | zero => rfl
  | succ m ih =>
      obtain ⟨pending, mark⟩ := s
      cases pending with
      | nil =>
          cases n with
          | zero => rfl
          | succ n => exact congrArg (mark.token :: ·) (ih ⟨[], mark⟩ n)
      | cons t ts => exact congrArg (t :: ·) (ih ⟨ts, mark⟩ n)

end TokenStream

/-- The same result, with another stream left. -/
def Rule.endingAt {α : Type} (s : TokenStream) :
    EStateM.Result Diagnostic TokenStream α → EStateM.Result Diagnostic TokenStream α
  | .ok x _ => .ok x s
  | .error d _ => .error d s

namespace Procedures

namespace Evaluates

variable {C : Type → Type 1} {P : Procedures C} {α : Type} {x : Script C α}
  {n i n' i' pulls pulls' : Nat} {s s' : TokenStream} {o o' : EStateM.Result Diagnostic TokenStream α}

theorem left_eq (h : P.Evaluates n i x s pulls o) : Rule.left o = s.drop pulls := by
  induction h with
  | done => rfl
  | fail => rfl
  | look _ ih => exact ih
  | take _ ih => exact ih
  | invoke _ _ _ ih ihk =>
      rw [ihk, TokenStream.drop_add]
      exact congrArg (TokenStream.drop _) ih
  | invokeFail _ _ ih => exact ih

theorem congr_take (h : P.Evaluates n i x s pulls o) (h' : P.Evaluates n' i' x s' pulls' o')
    (hagree : s.take (pulls + 1) = s'.take (pulls + 1)) :
    pulls' = pulls ∧ o' = Rule.endingAt (s'.drop pulls) o := by
  induction h generalizing n' i' s' pulls' with
  | done =>
      cases h'
      exact ⟨rfl, rfl⟩
  | fail =>
      cases h'
      rw [Rule.endingAt, (TokenStream.agree_of_take_succ hagree).1]
      exact ⟨rfl, rfl⟩
  | look _ ih =>
      cases h' with
      | look h' =>
          rw [← (TokenStream.agree_of_take_succ hagree).1] at h'
          exact ih h' hagree
  | take _ ih =>
      obtain ⟨hcurrent, hadvance⟩ := TokenStream.agree_of_take_succ hagree
      cases h' with
      | take h' =>
          rw [← hcurrent] at h'
          obtain ⟨rfl, rfl⟩ := ih h' hadvance
          exact ⟨rfl, rfl⟩
  | @invoke _ _ _ _ _ _ s s₁ y pulls₁ pulls₂ _ _ hc _ ih ihk =>
      -- the call takes a first part of the tokens, and what goes on from it the rest
      rw [Nat.add_assoc] at hagree
      obtain ⟨htake, hdrop⟩ := TokenStream.agree_of_take_add hagree
      have hfirst : s.take (pulls₁ + 1) = s'.take (pulls₁ + 1) := by
        rw [Nat.add_comm pulls₂ 1, ← Nat.add_assoc] at hagree
        exact (TokenStream.agree_of_take_add hagree).1
      rw [← hc.left_eq] at hdrop
      cases h' with
      | invoke _ hc' hk' =>
          obtain ⟨rfl, hy⟩ := ih hc' hfirst
          cases hy
          obtain ⟨rfl, rfl⟩ := ihk hk' hdrop
          rw [TokenStream.drop_add]
          exact ⟨rfl, rfl⟩
      | invokeFail _ hc' => cases (ih hc' hfirst).2
  | invokeFail _ _ ih =>
      cases h' with
      | invoke _ hc' _ => cases (ih hc' hagree).2
      | invokeFail _ hc' =>
          obtain ⟨rfl, hd⟩ := ih hc' hagree
          cases hd
          exact ⟨rfl, rfl⟩

end Evaluates

end Procedures

end ClassLang
