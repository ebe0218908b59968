import JavaOutline.Exclusion.Glob
import Mathlib.Data.List.Infix

/-! What patterns stand for. Matching keeps the list of what can be left of the text, so a part of a
pattern is described by what it leaves. -/
namespace JavaOutline.Glob

theorem mem_tails {rest text : List Char} : rest ∈ tails text ↔ rest <:+ text := by
  induction text with
  | nil => simp [tails]
  | cons c text ih => rw [tails, List.mem_cons, ih, List.suffix_cons_iff]

theorem mem_step_literal {remainders : List (List Char)} {c : Char} {rest : List Char} :
    rest ∈ step remainders (.literal c) ↔ c :: rest ∈ remainders := by
  simp only [step, List.mem_filterMap]
  constructor
  · rintro ⟨r, hr, hStep⟩
    cases r with
    | nil => simp at hStep
    | cons d r =>
        simp only [Token.accepts, beq_iff_eq, Option.ite_none_right_eq_some,
          Option.some.injEq] at hStep
        obtain ⟨rfl, rfl⟩ := hStep
        exact hr
  · intro h
    exact ⟨c :: rest, h, by simp [Token.accepts]⟩

/-- Literals one after another have to be the next characters. -/
theorem mem_foldl_step_literals {cs rest : List Char} {remainders : List (List Char)} :
    rest ∈ (cs.map Token.literal).foldl step remainders ↔ cs ++ rest ∈ remainders := by
  induction cs generalizing remainders with
  | nil => rfl
  | cons c cs ih => rw [List.map_cons, List.foldl_cons, ih, mem_step_literal, List.cons_append]

/-- A pattern stands for a text if nothing of the text need be left after it. -/
theorem isMatch_iff {tokens : List Token} {text : String} :
    isMatch tokens text = true ↔ [] ∈ tokens.foldl step [text.toList] := by
  simp [isMatch, List.any_eq_true]

/-- A star before characters stands for the texts that end with these characters. -/
theorem isMatch_anySequence_literals {cs : List Char} {text : String} :
    isMatch (.anySequence :: cs.map .literal) text = true ↔ cs <:+ text.toList := by
  rw [isMatch_iff, List.foldl_cons, mem_foldl_step_literals, List.append_nil, step, mem_tails]

/-- A wild card at the end takes whatever is left. -/
theorem nil_mem_step_anySequence {remainders : List (List Char)} :
    [] ∈ step remainders .anySequence ↔ ∃ rest, rest ∈ remainders := by
  cases remainders with
  | nil => simp [step]
  | cons longest others =>
      have hEnd : [] ∈ tails longest := mem_tails.mpr List.nil_suffix
      exact iff_of_true hEnd ⟨longest, List.mem_cons_self⟩

/-- A star at the end takes whatever is left. -/
theorem isMatch_concat_anySequence {tokens : List Token} {text : String} :
    isMatch (tokens ++ [.anySequence]) text = true ↔
      ∃ rest, rest ∈ tokens.foldl step [text.toList] := by
  rw [isMatch_iff, List.foldl_append, List.foldl_cons, List.foldl_nil, nil_mem_step_anySequence]

/-- Characters before a star stand for the texts that begin with these characters. -/
theorem isMatch_literals_anySequence {cs : List Char} {text : String} :
    isMatch (cs.map .literal ++ [.anySequence]) text = true ↔ cs <+: text.toList := by
  rw [isMatch_concat_anySequence]
  apply exists_congr
  intro rest
  rw [mem_foldl_step_literals, List.mem_singleton]

/-- Characters between stars stand for the texts that contain these characters in a row. -/
theorem isMatch_anySequence_literals_anySequence {cs : List Char} {text : String} :
    isMatch (.anySequence :: (cs.map .literal ++ [.anySequence])) text = true ↔
      cs <:+: text.toList := by
  rw [← List.cons_append, isMatch_concat_anySequence, List.infix_iff_prefix_suffix]
  constructor
  · intro hMatch
    obtain ⟨rest, hRest⟩ := hMatch
    rw [List.foldl_cons, mem_foldl_step_literals, step, mem_tails] at hRest
    exact ⟨cs ++ rest, List.prefix_append cs rest, hRest⟩
  · intro hInfix
    obtain ⟨_, ⟨rest, rfl⟩, hSuffix⟩ := hInfix
    refine ⟨rest, ?_⟩
    rwa [List.foldl_cons, mem_foldl_step_literals, step, mem_tails]

/-- Whether a character stands for itself in a pattern. -/
def IsLiteral (c : Char) : Prop := c ≠ '?' ∧ c ≠ '*' ∧ c ≠ '['

instance (c : Char) : Decidable (IsLiteral c) := inferInstanceAs (Decidable (_ ∧ _))

/-- A character that has no meaning of its own is read as a literal. -/
theorem readToken_of_isLiteral {c : Char} (h : IsLiteral c) (position : Nat)
    (before : Option Char) (rest : List Char) :
    readToken position before c rest = .ok ⟨.literal c, 0⟩ := by
  obtain ⟨hAny, hStar, hClass⟩ := h
  rw [readToken, if_neg hAny, if_neg hStar, if_neg hClass]

/-- Characters that stand for themselves and a star at the end are read as such. -/
theorem parseFrom_literals_star {cs : List Char} (h : ∀ c ∈ cs, IsLiteral c) (position : Nat)
    (before : Option Char) :
    parseFrom position before 0 (cs ++ ['*']) = .ok (cs.map .literal ++ [.anySequence]) := by
  induction cs generalizing position before with
  | nil => rfl
  | cons c cs ih =>
      obtain ⟨hFirst, hRest⟩ := List.forall_mem_cons.mp h
      rw [List.cons_append, parseFrom, readToken_of_isLiteral hFirst]
      simp only [ih hRest, List.map_cons, List.cons_append]

/-- A star before such characters is read as a star by itself. -/
theorem parseFrom_star_literals_star {c : Char} {cs : List Char}
    (h : ∀ d ∈ c :: cs, IsLiteral d) (position : Nat) (before : Option Char) :
    parseFrom position before 0 ('*' :: (c :: cs ++ ['*'])) =
      .ok (.anySequence :: ((c :: cs).map .literal ++ [.anySequence])) := by
  have hNoStar : c ≠ '*' := (h c List.mem_cons_self).2.1
  have hStar : readToken position before '*' (c :: cs ++ ['*']) = .ok ⟨.anySequence, 0⟩ := by
    simp [readToken, readStars, hNoStar]
  rw [parseFrom, hStar]
  simp only [parseFrom_literals_star h]

end JavaOutline.Glob
