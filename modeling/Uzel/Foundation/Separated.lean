import Mathlib.Data.List.TakeWhile

/-! # Texts that are separated by a mark

A separator is a mark with any blanks around it.  `tokens` cuts a text at its separators as an iterator
over the text between the matches of a pattern does: the first separator is searched, what stands in
front of it is a token, and the search goes on behind it.  An empty rest behind the last separator is
no token, but a text without separators is one token even if it is empty.

`Written` is the grammar of such texts, and `tokens_eq_iff` says that `tokens` inverts it.
-/

namespace Uzel.Foundation.Separated

variable {α : Type*} [DecidableEq α] (blank : α → Bool) (mark : α)

/-- What follows the separator at the beginning of the text. -/
def separator (text : List α) : Option (List α) :=
  match text.dropWhile blank with
  | [] => none
  | a :: rest => if a = mark then some (rest.dropWhile blank) else none

/-- What stands in front of the first separator, and behind it. -/
def search : List α → Option (List α × List α)
  | [] => none
  | a :: text =>
    match separator blank mark (a :: text) with
    | some rest => some ([], rest)
    | none => (search text).map fun found => (a :: found.1, found.2)

variable {blank mark}

theorem separator_eq_some {text rest : List α} (plain : blank mark = false) :
    separator blank mark text = some rest ↔ ∃ before after, text = before ++ mark :: after ∧
      (∀ a ∈ before, blank a = true) ∧ rest = after.dropWhile blank := by
  constructor
  · intro found
    unfold separator at found
    split at found
    · cases found
    next a after isRest =>
      split at found
      next isMark =>
        cases found
        refine ⟨text.takeWhile blank, after, ?_, ?_, rfl⟩
        · rw [← isMark, ← isRest, List.takeWhile_append_dropWhile]
        · exact fun a member => List.mem_takeWhile_imp member
      next => cases found
  · rintro ⟨before, after, rfl, blanks, rfl⟩
    have begins : (before ++ mark :: after).dropWhile blank = mark :: after := by
      rw [List.dropWhile_append_of_pos blanks, List.dropWhile_cons_of_neg (by simp [plain])]
    simp [separator, begins]

/-- The text up to its first mark. -/
theorem takeWhile_mark {front : List α} (unmarked : mark ∉ front) (after : List α) :
    (front ++ mark :: after).takeWhile (fun a => decide (a ≠ mark)) = front := by
  rw [List.takeWhile_append_of_pos]
  · simp
  · intro a member
    have other : a ≠ mark := fun same => unmarked (same ▸ member)
    simpa using other

/-- The front of a separator has no mark, and the blanks in front of the mark belong to the separator. -/
structure Front (blank : α → Bool) (mark : α) (front : List α) : Prop where
  unmarked : mark ∉ front
  trimmed : ∀ a ∈ front.getLast?, blank a = false

omit [DecidableEq α] in
theorem front_nil : Front blank mark [] := ⟨List.not_mem_nil, by simp⟩

omit [DecidableEq α] in
theorem front_cons {a : α} {front : List α} :
    Front blank mark (a :: front) ↔ a ≠ mark ∧ (front = [] → blank a = false) ∧ Front blank mark front := by
  constructor
  · intro whole
    have unmarked : mark ≠ a ∧ mark ∉ front := by simpa using whole.unmarked
    refine ⟨Ne.symm unmarked.1, ?_, unmarked.2, ?_⟩
    · rintro rfl
      exact whole.trimmed a (by simp)
    · intro last isLast
      apply whole.trimmed last
      rw [List.getLast?_cons, Option.mem_def.mp isLast]
      rfl
  · rintro ⟨other, single, rest⟩
    refine ⟨by simpa using ⟨Ne.symm other, rest.unmarked⟩, ?_⟩
    intro last isLast
    cases front with
    | nil =>
      obtain rfl : a = last := by simpa using isLast
      exact single rfl
    | cons b front =>
      apply rest.trimmed last
      simpa using isLast

omit [DecidableEq α] in
/-- A front of blanks is empty. -/
theorem Front.eq_nil {front before : List α} (isFront : Front blank mark front)
    (blanks : ∀ a ∈ front ++ before, blank a = true) : front = [] := by
  cases last : front.getLast? with
  | none => exact List.getLast?_eq_none_iff.mp last
  | some a =>
    have isBlank := blanks a (List.mem_append_left _ (List.mem_of_getLast? last))
    rw [isFront.trimmed a last] at isBlank
    cases isBlank

theorem search_eq_some {text front rest : List α} (plain : blank mark = false) :
    search blank mark text = some (front, rest) ↔ Front blank mark front ∧ ∃ before after,
      text = front ++ before ++ mark :: after ∧ (∀ a ∈ before, blank a = true) ∧
        rest = after.dropWhile blank := by
  induction text generalizing front with
  | nil => simp [search]
  | cons a text inductionHypothesis =>
    cases begins : separator blank mark (a :: text) with
    | some found =>
      obtain ⟨before, after, isText, blanks, rfl⟩ := (separator_eq_some plain).mp begins
      simp only [search, begins, Option.some.injEq, Prod.mk.injEq]
      constructor
      · rintro ⟨rfl, rfl⟩
        exact ⟨front_nil, before, after, isText, blanks, rfl⟩
      · rintro ⟨isFront, before', after', isText', blanks', rfl⟩
        have marks : mark ∉ before := by
          intro member
          rw [blanks mark member] at plain
          cases plain
        have marks' : mark ∉ front ++ before' := by
          intro member
          rcases List.mem_append.mp member with inFront | inBlanks
          · exact isFront.unmarked inFront
          · rw [blanks' mark inBlanks] at plain
            cases plain
        have same : front ++ before' = before := by
          rw [← takeWhile_mark marks' after', ← isText', isText, takeWhile_mark marks after]
        obtain rfl := isFront.eq_nil (same ▸ blanks)
        obtain rfl : before' = before := same
        rw [isText] at isText'
        have rest := List.append_cancel_left isText'
        simp only [List.cons.injEq, true_and] at rest
        exact ⟨rfl, congrArg _ rest⟩
    | none =>
      have fails : ∀ before after, a :: text = before ++ mark :: after → ¬ ∀ b ∈ before, blank b = true := by
        intro before after isText blanks
        rw [(separator_eq_some plain).mpr ⟨before, after, isText, blanks, rfl⟩] at begins
        cases begins
      simp only [search, begins, Option.map_eq_some_iff, Prod.mk.injEq]
      constructor
      · rintro ⟨⟨found, rest'⟩, searched, rfl, rfl⟩
        obtain ⟨isFront, before, after, isText, blanks, isRest⟩ := inductionHypothesis.mp searched
        refine ⟨front_cons.mpr ⟨?_, ?_, isFront⟩, before, after, by rw [isText]; rfl, blanks, isRest⟩
        · rintro rfl
          exact fails [] text rfl (by simp)
        · intro empty
          have isText : text = before ++ mark :: after := by
            rw [isText]
            simpa using empty
          rw [← Bool.not_eq_true]
          intro isBlank
          exact fails (a :: before) after (congrArg _ isText) (List.forall_mem_cons.mpr ⟨isBlank, blanks⟩)
      · rintro ⟨isFront, before, after, isText, blanks, rfl⟩
        cases front with
        | nil => exact absurd blanks (fails before after isText)
        | cons b front =>
          simp only [List.cons_append, List.cons.injEq] at isText
          obtain ⟨rfl, isText⟩ := isText
          exact ⟨(front, after.dropWhile blank), inductionHypothesis.mpr
            ⟨(front_cons.mp isFront).2.2, before, after, isText, blanks, rfl⟩, rfl, rfl⟩

theorem search_eq_none {text : List α} (plain : blank mark = false) :
    search blank mark text = none ↔ mark ∉ text := by
  induction text with
  | nil => simp [search]
  | cons a text inductionHypothesis =>
    cases begins : separator blank mark (a :: text) with
    | some found =>
      obtain ⟨before, after, isText, _, _⟩ := (separator_eq_some plain).mp begins
      have member : mark ∈ a :: text := by simp [isText]
      simp only [search, begins, reduceCtorEq, false_iff, not_not]
      exact member
    | none =>
      have other : mark ≠ a := by
        rintro rfl
        have found := (@separator_eq_some _ _ blank mark (mark :: text) _ plain).mpr ⟨[], text, rfl, by simp, rfl⟩
        rw [found] at begins
        cases begins
      simp [search, begins, inductionHypothesis, other]

/-- The search goes forward. -/
theorem length_search {text : List α} {found : List α × List α} (searched : search blank mark text = some found) :
    found.2.length < text.length := by
  induction text generalizing found with
  | nil => cases searched
  | cons a text inductionHypothesis =>
    cases begins : separator blank mark (a :: text) with
    | some rest =>
      simp only [search, begins, Option.some.injEq] at searched
      subst searched
      unfold separator at begins
      split at begins
      · cases begins
      next b after isRest =>
        split at begins
        · cases begins
          have first := (List.dropWhile_suffix (l := a :: text) blank).length_le
          have second := (List.dropWhile_suffix (l := after) blank).length_le
          rw [isRest, List.length_cons] at first
          exact Nat.lt_of_le_of_lt second first
        · cases begins
    | none =>
      simp only [search, begins, Option.map_eq_some_iff] at searched
      obtain ⟨later, searched, rfl⟩ := searched
      exact (inductionHypothesis searched).trans (Nat.lt_succ_self _)

/-! ## Tokens -/

variable (blank mark)

/-- The tokens of a text behind a separator. -/
def pieces (text : List α) : List (List α) :=
  match _searched : search blank mark text with
  | none => if text = [] then [] else [text]
  | some found => found.1 :: pieces found.2
termination_by text.length
decreasing_by exact length_search _searched

def tokens (text : List α) : List (List α) := if text = [] then [[]] else pieces blank mark text

omit [DecidableEq α] in
/-- The texts of the lists of tokens.  What stands behind the last separator is a token if there is
anything; blanks in front of a separator and behind it belong to the separator. -/
inductive Written : List (List α) → List α → Prop
  | single {name : List α} (unmarked : mark ∉ name) : Written [name] name
  | last {name before after : List α} (front : Front blank mark name)
      (blanks : ∀ a ∈ before ++ after, blank a = true) : Written [name] (name ++ before ++ mark :: after)
  | cons {name before after text : List α} {names : List (List α)} (front : Front blank mark name)
      (blanks : ∀ a ∈ before ++ after, blank a = true) (begins : ∃ a ∈ text.head?, blank a = false)
      (rest : Written names text) : Written (name :: names) (name ++ before ++ mark :: (after ++ text))

variable {blank mark}

theorem pieces_none {text : List α} (searched : search blank mark text = none) :
    pieces blank mark text = if text = [] then [] else [text] := by
  unfold pieces
  split
  · rfl
  next found other =>
    rw [searched] at other
    cases other

theorem pieces_some {text front rest : List α} (searched : search blank mark text = some (front, rest)) :
    pieces blank mark text = front :: pieces blank mark rest := by
  rw [pieces]
  split
  next other =>
    rw [searched] at other
    cases other
  next found other =>
    obtain rfl : found = (front, rest) := Option.some.inj (other.symm.trans searched)
    rfl

@[simp] theorem pieces_nil : pieces blank mark [] = [] := pieces_none rfl

theorem written_pieces (plain : blank mark = false) {text : List α} (nonempty : text ≠ []) :
    Written blank mark (pieces blank mark text) text := by
  induction size : text.length using Nat.strong_induction_on generalizing text with
  | _ size' inductionHypothesis =>
    cases searched : search blank mark text with
    | none =>
      rw [pieces_none searched, if_neg nonempty]
      exact .single ((search_eq_none plain).mp searched)
    | some found =>
      have shorter := length_search searched
      obtain ⟨front, rest⟩ := found
      obtain ⟨isFront, before, after, isText, blanks, isRest⟩ := (search_eq_some plain).mp searched
      have whole : after.takeWhile blank ++ rest = after := by rw [isRest, List.takeWhile_append_dropWhile]
      have allBlanks : ∀ a ∈ before ++ after.takeWhile blank, blank a = true := by
        intro a member
        rcases List.mem_append.mp member with first | second
        · exact blanks a first
        · exact List.mem_takeWhile_imp second
      rw [pieces_some searched, isText, ← whole]
      by_cases ends : rest = []
      · rw [ends, pieces_nil, List.append_nil]
        exact .last isFront allBlanks
      · refine .cons isFront allBlanks ?_ (inductionHypothesis _ (size ▸ shorter) ends rfl)
        obtain ⟨a, rest', isCons⟩ := List.exists_cons_of_ne_nil ends
        refine ⟨a, by simp [isCons], ?_⟩
        have first := List.head?_dropWhile_not blank after
        rw [← isRest, isCons] at first
        simpa using first

theorem tokens_of_written (plain : blank mark = false) {names : List (List α)} {text : List α}
    (written : Written blank mark names text) : tokens blank mark text = names := by
  induction written with
  | @single name unmarked =>
    rw [tokens, pieces_none ((search_eq_none plain).mpr unmarked)]
    by_cases empty : name = [] <;> simp [empty]
  | @last name before after front blanks =>
    rw [List.forall_mem_append] at blanks
    have searched := (search_eq_some plain).mpr ⟨front, before, after, rfl, blanks.1, rfl⟩
    rw [tokens, if_neg (by simp), pieces_some searched, List.dropWhile_eq_nil_iff.mpr blanks.2, pieces_nil]
  | @cons name before after text names front blanks begins rest inductionHypothesis =>
    rw [List.forall_mem_append] at blanks
    have searched := (search_eq_some plain).mpr ⟨front, before, after ++ text, rfl, blanks.1, rfl⟩
    obtain ⟨a, isFirst, isPlain⟩ := begins
    cases text with
    | nil => cases isFirst
    | cons b text =>
      obtain rfl : b = a := Option.some.inj isFirst
      rw [List.dropWhile_append_of_pos blanks.2, List.dropWhile_cons_of_neg (by simp [isPlain])] at searched
      rw [tokens, if_neg (by simp), pieces_some searched]
      rw [tokens, if_neg (by simp)] at inductionHypothesis
      rw [inductionHypothesis]

/-- The tokens of a text are the names that it has been written from. -/
theorem tokens_eq_iff (plain : blank mark = false) {names : List (List α)} {text : List α} :
    tokens blank mark text = names ↔ Written blank mark names text := by
  constructor
  · rintro rfl
    by_cases empty : text = []
    · subst empty
      exact .single List.not_mem_nil
    · rw [tokens, if_neg empty]
      exact written_pieces plain empty
  · exact tokens_of_written plain

end Uzel.Foundation.Separated
