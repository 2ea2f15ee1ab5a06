import Mathlib.Data.List.Induction
import Mathlib.Data.List.TakeWhile
import Mathlib.Data.Nat.Digits.Defs
import Uzel.Priority

/-! # The texts of priorities

A priority is written as the decimal text of its value.  `get_value` reads the longest integer at the
start of a text, without a look at where `std::from_chars` has stopped, and passes it to a function of a
16-bit argument.  So it accepts texts that only begin with the value of a priority, and integers that
are equal to it modulo 2^16.  `translation_exact_iff` says that there are no others.
-/

namespace Uzel.Verified.PriorityText

/-- The number that is written with the digits. -/
def digitsValue (digits : List Char) : Nat :=
  Nat.ofDigits 10 (digits.reverse.map fun digit => digit.toNat - '0'.toNat)

/-- The decimal texts of integers: some digits, behind a minus or not. -/
inductive IntegerText : List Char → Int → Prop
  | natural {digits : List Char} (some_ : digits ≠ []) (all : ∀ digit ∈ digits, digit.isDigit = true) :
      IntegerText digits (digitsValue digits)
  | negative {digits : List Char} (some_ : digits ≠ []) (all : ∀ digit ∈ digits, digit.isDigit = true) :
      IntegerText ('-' :: digits) (-digitsValue digits)

/-- The range of `int`. -/
def InIntRange (value : Int) : Prop := -2 ^ 31 ≤ value ∧ value < 2 ^ 31

/-- The whole text is that of an integer, and the integer is the declared value of the priority. -/
def Exact (text : String) (priority : Priority) : Prop :=
  ∃ value, IntegerText text.toList value ∧ InIntRange value ∧ value = priority.toIntegral

/-- The text begins with an integer, and what follows is not another digit of it. -/
structure Begins (text number rest : List Char) (value : Int) : Prop where
  split : text = number ++ rest
  integer : IntegerText number value
  longest : ∀ next, rest.head? = some next → next.isDigit = false

/-- If the integer at the start of the text is an `int` and equal to the value of a priority modulo 2^16,
it is that value and all of the text. -/
def Unambiguous (text : String) : Prop :=
  ∀ number rest value, Begins text.toList number rest value → InIntRange value →
    ∀ priority : Priority, value % 2 ^ 16 = priority.toIntegral →
      rest = [] ∧ value = priority.toIntegral

/-! ## Integers at the start of a text -/

theorem fold_digits {digits : List Char} (all : ∀ digit ∈ digits, digit.isDigit = true) :
    digits.foldl (fun (value : Int) digit => value * 10 + (digit.toNat - 48)) 0 = digitsValue digits := by
  -- on the digits from the last one, which has the weight one
  induction digits using List.reverseRecOn with
  | nil => rfl
  | append_singleton digits last inductionHypothesis =>
    have before := inductionHypothesis fun digit member => all digit (List.mem_append_left _ member)
    have isDigit := all last (by simp)
    have atLeast : 48 ≤ last.toNat := by
      simp only [Char.isDigit, Bool.and_eq_true, decide_eq_true_eq] at isDigit
      exact isDigit.1
    have value : digitsValue (digits ++ [last]) = (last.toNat - 48) + 10 * digitsValue digits := by
      simp [digitsValue, Nat.ofDigits_cons]
    rw [List.foldl_append, before, value]
    simp only [List.foldl_cons, List.foldl_nil]
    omega

section Reading

variable {text digits rest : List Char} {value : Int}

theorem takeWhile_digits (all : ∀ digit ∈ digits, digit.isDigit = true)
    (longest : ∀ next, rest.head? = some next → next.isDigit = false) :
    (digits ++ rest).takeWhile Char.isDigit = digits := by
  rw [List.takeWhile_append_of_pos all]
  cases rest with
  | nil => simp
  | cons next rest => simp [longest next rfl]

theorem dropWhile_longest (text : List Char) :
    ∀ next, (text.dropWhile Char.isDigit).head? = some next → next.isDigit = false := by
  intro next isNext
  have stopped := List.head?_dropWhile_not Char.isDigit text
  rwa [isNext] at stopped

theorem range_eq_some {magnitude : Int} :
    (if -2 ^ 31 ≤ magnitude ∧ magnitude < 2 ^ 31 then some magnitude else none) = some value ↔
      InIntRange value ∧ value = magnitude := by
  by_cases fits : -2 ^ 31 ≤ magnitude ∧ magnitude < 2 ^ 31
  · rw [if_pos fits, Option.some.injEq]
    constructor
    · rintro rfl
      exact ⟨fits, rfl⟩
    · exact fun isValue => isValue.2.symm
  · rw [if_neg fits]
    constructor
    · intro absent
      cases absent
    · rintro ⟨inRange, rfl⟩
      exact absurd inRange fits

theorem fromChars_natural (some_ : digits ≠ []) (all : ∀ digit ∈ digits, digit.isDigit = true)
    (longest : ∀ next, rest.head? = some next → next.isDigit = false) :
    Priority.fromChars (digits ++ rest) = some value ↔ InIntRange value ∧ value = digitsValue digits := by
  have natural : ((digits ++ rest).head? == some '-') = false := by
    obtain ⟨first, others, rfl⟩ := List.exists_cons_of_ne_nil some_
    rw [beq_eq_false_iff_ne]
    rintro ⟨rfl⟩
    exact absurd (all '-' List.mem_cons_self) (by decide)
  simp only [Priority.fromChars, natural, Bool.false_eq_true, if_false, takeWhile_digits all longest,
    fold_digits all, if_neg some_]
  exact range_eq_some

theorem fromChars_negative (some_ : digits ≠ []) (all : ∀ digit ∈ digits, digit.isDigit = true)
    (longest : ∀ next, rest.head? = some next → next.isDigit = false) :
    Priority.fromChars ('-' :: digits ++ rest) = some value ↔
      InIntRange value ∧ value = -digitsValue digits := by
  have negative : (('-' :: (digits ++ rest)).head? == some '-') = true := rfl
  simp only [List.cons_append, Priority.fromChars, negative, if_true, List.tail_cons,
    takeWhile_digits all longest, fold_digits all, if_neg some_]
  exact range_eq_some

/-- The digits that `std::from_chars` reads. -/
theorem begins_of_fromChars (read : Priority.fromChars text = some value) :
    ∃ number rest, Begins text number rest value := by
  by_cases negative : text.head? = some '-'
  · obtain ⟨tail, rfl⟩ : ∃ tail, text = '-' :: tail := by
      cases text with
      | nil => cases negative
      | cons first tail =>
        cases negative
        exact ⟨tail, rfl⟩
    have some_ : tail.takeWhile Char.isDigit ≠ [] := by
      intro none_
      simp [Priority.fromChars, none_] at read
    have all : ∀ digit ∈ tail.takeWhile Char.isDigit, digit.isDigit = true :=
      fun digit member => List.mem_takeWhile_imp member
    have split : '-' :: tail = '-' :: tail.takeWhile Char.isDigit ++ tail.dropWhile Char.isDigit := by
      rw [List.cons_append, List.takeWhile_append_dropWhile]
    rw [split] at read
    obtain ⟨_, rfl⟩ := (fromChars_negative some_ all (dropWhile_longest tail)).mp read
    exact ⟨_, _, split, .negative some_ all, dropWhile_longest tail⟩
  · have some_ : text.takeWhile Char.isDigit ≠ [] := by
      intro none_
      simp [Priority.fromChars, negative, none_] at read
    have all : ∀ digit ∈ text.takeWhile Char.isDigit, digit.isDigit = true :=
      fun digit member => List.mem_takeWhile_imp member
    have split : text = text.takeWhile Char.isDigit ++ text.dropWhile Char.isDigit :=
      List.takeWhile_append_dropWhile.symm
    rw [split] at read
    obtain ⟨_, rfl⟩ := (fromChars_natural some_ all (dropWhile_longest text)).mp read
    exact ⟨_, _, split, .natural some_ all, dropWhile_longest text⟩

/-- The reader of the code and the description of the texts agree. -/
theorem fromChars_eq_some : Priority.fromChars text = some value ↔
    InIntRange value ∧ ∃ number rest, Begins text number rest value := by
  constructor
  · intro read
    obtain ⟨number, rest, begins⟩ := begins_of_fromChars read
    refine ⟨?_, number, rest, begins⟩
    obtain ⟨rfl, isInteger, longest⟩ := begins
    cases isInteger with
    | natural some_ all => exact ((fromChars_natural some_ all longest).mp read).1
    | negative some_ all => exact ((fromChars_negative some_ all longest).mp read).1
  · rintro ⟨inRange, number, rest, rfl, isInteger, longest⟩
    cases isInteger with
    | natural some_ all => exact (fromChars_natural some_ all longest).mpr ⟨inRange, rfl⟩
    | negative some_ all => exact (fromChars_negative some_ all longest).mpr ⟨inRange, rfl⟩

end Reading

/-! ## Exactness -/

theorem fromIntegralNothrow_eq_some {value : Nat} {priority : Priority} :
    Priority.fromIntegralNothrow value = some priority ↔ value = priority.toIntegral := by
  constructor
  · intro found
    have same := List.find?_some found
    exact (beq_iff_eq.mp same).symm
  · rintro rfl
    cases priority <;> rfl

theorem getValue_eq_some {text : String} {priority : Priority} : Priority.getValue text = some priority ↔
    ∃ number rest value, Begins text.toList number rest value ∧ InIntRange value ∧
      value % 2 ^ 16 = priority.toIntegral := by
  simp only [Priority.getValue, Option.bind_eq_some_iff, fromChars_eq_some, fromIntegralNothrow_eq_some]
  constructor
  · rintro ⟨value, ⟨inRange, number, rest, begins⟩, same⟩
    exact ⟨number, rest, value, begins, inRange, by omega⟩
  · rintro ⟨number, rest, value, begins, inRange, same⟩
    exact ⟨value, ⟨inRange, number, rest, begins⟩, by omega⟩

theorem IntegerText.begins {text : List Char} {value : Int} (isInteger : IntegerText text value) :
    Begins text text [] value :=
  ⟨(List.append_nil text).symm, isInteger, fun _ next => by cases next⟩

theorem IntegerText.nonempty {text : List Char} {value : Int} (isInteger : IntegerText text value) :
    text ≠ [] := by
  cases isInteger with
  | natural some_ all => exact some_
  | negative some_ all => exact List.cons_ne_nil _ _

/-- Behind the first character there are only digits. -/
theorem IntegerText.tail_digits {text : List Char} {value : Int} (isInteger : IntegerText text value) :
    ∀ next ∈ text.tail, next.isDigit = true := by
  cases isInteger with
  | natural some_ all => exact fun next member => all next (List.mem_of_mem_tail member)
  | negative some_ all => exact all

/-- A text that is that of an integer does not begin with another one. -/
theorem Begins.whole {text number rest : List Char} {value whole : Int}
    (begins : Begins text number rest value) (isInteger : IntegerText text whole) : rest = [] := by
  obtain ⟨rfl, isNumber, longest⟩ := begins
  cases rest with
  | nil => rfl
  | cons next rest =>
    obtain ⟨first, others, rfl⟩ := List.exists_cons_of_ne_nil isNumber.nonempty
    -- the rest would begin with a digit of the whole text
    have digit := isInteger.tail_digits next (by simp)
    rw [longest next rfl] at digit
    cases digit

theorem getValue_of_exact {text : String} {priority : Priority} (exact_ : Exact text priority) :
    Priority.getValue text = some priority := by
  obtain ⟨value, isInteger, inRange, rfl⟩ := exact_
  refine getValue_eq_some.mpr ⟨_, _, _, isInteger.begins, inRange, ?_⟩
  cases priority <;> rfl

/-- `get_value` is exact on a text if and only if the text does not begin with a value that it is not. -/
theorem getValue_exact_iff (text : String) :
    (∀ priority, Priority.getValue text = some priority ↔ Exact text priority) ↔ Unambiguous text := by
  constructor
  · intro isExact number rest value begins inRange priority same
    have read := getValue_eq_some.mpr ⟨number, rest, value, begins, inRange, same⟩
    obtain ⟨whole, isInteger, wholeInRange, isValue⟩ := (isExact priority).mp read
    refine ⟨begins.whole isInteger, ?_⟩
    -- both are what `std::from_chars` reads
    have first := fromChars_eq_some.mpr ⟨inRange, number, rest, begins⟩
    have second := fromChars_eq_some.mpr ⟨wholeInRange, _, _, isInteger.begins⟩
    rw [first, Option.some.injEq] at second
    exact second.trans isValue
  · intro unambiguous priority
    refine ⟨fun read => ?_, getValue_of_exact⟩
    obtain ⟨number, rest, value, begins, inRange, same⟩ := getValue_eq_some.mp read
    obtain ⟨rfl, isValue⟩ := unambiguous number rest value begins inRange priority same
    refine ⟨value, ?_, inRange, isValue⟩
    rw [begins.split, List.append_nil]
    exact begins.integer

/-- A priority is read back from its text, and the other direction is exact on the texts that are not
ambiguous and on no others. -/
theorem translation_exact_iff (text : String) :
    (∀ priority, Priority.getValue priority.putValue = some priority) ∧
      ((∀ priority, Priority.getValue text = some priority ↔ Exact text priority) ↔ Unambiguous text) :=
  ⟨Priority.getValue_putValue, getValue_exact_iff text⟩

theorem not_exact_of_nondigit {text : String} {priority : Priority} {next : Char}
    (member : next ∈ text.toList.tail) (nondigit : next.isDigit = false) : ¬ Exact text priority := by
  rintro ⟨_, isInteger, _⟩
  rw [isInteger.tail_digits next member] at nondigit
  cases nondigit

/-- A text that only begins with the value of `high`, and an integer that is narrowed to it. -/
theorem inexact_translation :
    ¬ (Priority.getValue "10abc" = some .high ↔ Exact "10abc" .high) ∧
      ¬ (Priority.getValue "65546" = some .high ↔ Exact "65546" .high) := by
  constructor
  · intro isExact
    exact @not_exact_of_nondigit "10abc" .high 'a' (by decide) (by decide) (isExact.mp (by decide))
  · intro isExact
    obtain ⟨value, isInteger, inRange, isHigh⟩ := isExact.mp (by decide)
    have read := fromChars_eq_some.mpr ⟨inRange, _, _, isInteger.begins⟩
    have other : Priority.fromChars "65546".toList = some 65546 := by decide
    rw [other, Option.some.injEq, isHigh] at read
    cases read

end Uzel.Verified.PriorityText
