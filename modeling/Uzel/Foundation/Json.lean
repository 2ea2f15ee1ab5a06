import Uzel.Foundation.PropertyTree
import Mathlib.Tactic.IntervalCases

/-! # A compact JSON codec for property trees

The writer prints a tree without blanks: the root as an object, a deeper node without children as a
string, one whose children all have the empty name as an array, and any other as an object.  The
reader accepts the texts of that shape.  The codec is lawful (`compactJson_lawful`): it refuses the
trees that have no JSON text and reads back the line that it writes.
-/

namespace Uzel.Foundation.Json

/-! ## Strings -/

def hexDigit (n : Nat) : Char :=
  if n < 10 then Char.ofNat (48 + n) else Char.ofNat (55 + n)

def hexValue (c : Char) : Nat :=
  if c.toNat < 58 then c.toNat - 48 else c.toNat - 55

/-- One character of a string literal; what is not printable is escaped, so a literal never contains
a line feed. -/
def escapeChar (c : Char) : List Char :=
  if c = '\"' then ['\\', '\"']
  else if c = '\\' then ['\\', '\\']
  else if c = '/' then ['\\', '/']
  else if c = '\n' then ['\\', 'n']
  else if c = '\r' then ['\\', 'r']
  else if c = '\t' then ['\\', 't']
  else if c.toNat < 32 then ['\\', 'u', '0', '0', hexDigit (c.toNat / 16), hexDigit (c.toNat % 16)]
  else [c]

def escape (cs : List Char) : List Char := cs.flatMap escapeChar

/-- The rest of a string literal after its opening quote. -/
def readString : List Char → Option (List Char × List Char)
  | '\"' :: rest => some ([], rest)
  | '\\' :: 'n' :: rest => (readString rest).map fun r => ('\n' :: r.1, r.2)
  | '\\' :: 'r' :: rest => (readString rest).map fun r => ('\r' :: r.1, r.2)
  | '\\' :: 't' :: rest => (readString rest).map fun r => ('\t' :: r.1, r.2)
  | '\\' :: 'u' :: '0' :: '0' :: high :: low :: rest =>
    (readString rest).map fun r => (Char.ofNat (hexValue high * 16 + hexValue low) :: r.1, r.2)
  | '\\' :: c :: rest => (readString rest).map fun r => (c :: r.1, r.2)
  | c :: rest => (readString rest).map fun r => (c :: r.1, r.2)
  | [] => none

theorem readString_escapeChar (c : Char) (cs : List Char) :
    readString (escapeChar c ++ cs) = (readString cs).map fun r => (c :: r.1, r.2) := by
  unfold escapeChar
  split
  · next quote => subst quote; simp [readString]
  split
  · next backslash => subst backslash; simp [readString]
  split
  · next slash => subst slash; simp [readString]
  split
  · next lineFeed => subst lineFeed; simp [readString]
  split
  · next carriageReturn => subst carriageReturn; simp [readString]
  split
  · next tab => subst tab; simp [readString]
  split
  · next control =>
    have decoded : Char.ofNat (hexValue (hexDigit (c.toNat / 16)) * 16 +
        hexValue (hexDigit (c.toNat % 16))) = c := by
      have values : ∀ n, n < 32 →
          hexValue (hexDigit (n / 16)) * 16 + hexValue (hexDigit (n % 16)) = n := by decide
      rw [values _ control, Char.ofNat_toNat]
    simp [readString, decoded]
  · next quote backslash _ _ _ _ _ => simp [readString, backslash]

theorem readString_escape (cs rest : List Char) :
    readString (escape cs ++ '\"' :: rest) = some (cs, rest) := by
  induction cs with
  | nil => simp [escape, readString]
  | cons c cs inductionHypothesis =>
    rw [show escape (c :: cs) = escapeChar c ++ escape cs from List.flatMap_cons, List.append_assoc,
      readString_escapeChar, inductionHypothesis]
    rfl

theorem newline_notMem_escapeChar (c : Char) : '\n' ∉ escapeChar c := by
  have digits : ∀ n, n < 16 → hexDigit n ≠ '\n' := by decide
  unfold escapeChar
  split_ifs with _ _ _ lineFeed _ _ control
  all_goals simp
  · exact ⟨(digits _ (by omega)).symm, (digits _ (by omega)).symm⟩
  · exact fun same => lineFeed same.symm

theorem newline_notMem_escape (cs : List Char) : '\n' ∉ escape cs := by
  simp only [escape, List.mem_flatMap, not_exists, not_and]
  exact fun c _ => newline_notMem_escapeChar c

/-! ## Trees -/

def writeString (s : String) : List Char := '\"' :: escape s.toList ++ ['\"']

mutual

/-- A node below the root. -/
def writeValue : PTree → List Char
  | .node data [] => writeString data
  | .node _ (child :: rest) =>
    if child.1 = "" ∧ rest.all (·.1 = "") then
      '[' :: writeNested child ++ writeElements rest
    else
      '{' :: writeMember child ++ writeMembers rest
termination_by structural tree => tree

/-- The further elements of an array, with its closing bracket. -/
def writeElements : List (String × PTree) → List Char
  | [] => [']']
  | child :: rest => ',' :: writeNested child ++ writeElements rest
termination_by structural children => children

/-- The further members of an object, with its closing brace. -/
def writeMembers : List (String × PTree) → List Char
  | [] => ['}']
  | child :: rest => ',' :: writeMember child ++ writeMembers rest
termination_by structural children => children

def writeNested : String × PTree → List Char
  | (_, tree) => writeValue tree
termination_by structural child => child

def writeMember : String × PTree → List Char
  | (key, tree) => writeString key ++ ':' :: writeValue tree
termination_by structural child => child

end

/-- The root is written as an object whatever the names of its children are. -/
def writeObject : List (String × PTree) → List Char
  | [] => ['{', '}']
  | child :: rest => '{' :: writeMember child ++ writeMembers rest

mutual

def readValue : Nat → List Char → Option (PTree × List Char)
  | _ + 1, '\"' :: cs => (readString cs).map fun r => (.leaf (String.ofList r.1), r.2)
  | fuel + 1, '[' :: cs => (readElements fuel cs).map fun r => (.node "" r.1, r.2)
  | fuel + 1, '{' :: cs => (readMembers fuel cs).map fun r => (.node "" r.1, r.2)
  | _, _ => none

def readElements : Nat → List Char → Option (List (String × PTree) × List Char)
  | 0, _ => none
  | fuel + 1, cs =>
    match readValue fuel cs with
    | some (tree, ',' :: rest) => (readElements fuel rest).map fun r => (("", tree) :: r.1, r.2)
    | some (tree, ']' :: rest) => some ([("", tree)], rest)
    | _ => none

def readMembers : Nat → List Char → Option (List (String × PTree) × List Char)
  | _ + 1, '}' :: rest => some ([], rest)
  | fuel + 1, '\"' :: cs =>
    match readString cs with
    | some (key, ':' :: cs) =>
      match readValue fuel cs with
      | some (tree, ',' :: rest) =>
        (readMembers fuel rest).map fun r => ((String.ofList key, tree) :: r.1, r.2)
      | some (tree, '}' :: rest) => some ([(String.ofList key, tree)], rest)
      | _ => none
    | _ => none
  | _, _ => none

end

/-- The reader takes the text of `tree` off the front of any input that it is given fuel for. -/
def ReadsBack (tree : PTree) : Prop :=
  ∀ fuel rest, 2 * (writeValue tree).length ≤ fuel →
    readValue fuel (writeValue tree ++ rest) = some (tree, rest)

theorem readElements_write {child : String × PTree} {children : List (String × PTree)}
    (unnamed : ∀ c ∈ child :: children, c.1 = "") (readsBack : ∀ c ∈ child :: children, ReadsBack c.2)
    (fuel : Nat) (rest : List Char)
    (bound : 2 * (writeNested child ++ writeElements children).length ≤ fuel) :
    readElements fuel (writeNested child ++ writeElements children ++ rest) =
      some (child :: children, rest) := by
  induction children generalizing child fuel with
  -- the last element is followed by the closing bracket
  | nil =>
    obtain ⟨key, tree⟩ := child
    have keyEmpty : key = "" := unnamed _ List.mem_cons_self
    simp only [writeNested, writeElements, List.length_append, List.length_singleton] at bound ⊢
    cases fuel with
    | zero => omega
    | succ fuel =>
      have first := readsBack _ List.mem_cons_self fuel (']' :: rest) (by simp only; omega)
      simp only [List.append_assoc, List.singleton_append, readElements]
      rw [first]
      simp only [keyEmpty]
  -- each further element costs one unit of fuel, and its comma pays for it
  | cons next children inductionHypothesis =>
    obtain ⟨key, tree⟩ := child
    have keyEmpty : key = "" := unnamed _ List.mem_cons_self
    simp only [writeNested, writeElements, List.length_append, List.length_cons] at bound ⊢
    cases fuel with
    | zero => omega
    | succ fuel =>
      have first := readsBack _ List.mem_cons_self fuel
        (',' :: (writeNested next ++ writeElements children ++ rest)) (by simp only; omega)
      have others := inductionHypothesis (fun c member => unnamed c (List.mem_cons_of_mem _ member))
        (fun c member => readsBack c (List.mem_cons_of_mem _ member)) fuel
        (by simp only [List.length_append]; omega)
      simp only [List.append_assoc, List.cons_append, readElements] at first others ⊢
      rw [first]
      simp [others, keyEmpty]

theorem readMembers_write {child : String × PTree} {children : List (String × PTree)}
    (readsBack : ∀ c ∈ child :: children, ReadsBack c.2) (fuel : Nat) (rest : List Char)
    (bound : 2 * (writeMember child ++ writeMembers children).length ≤ fuel) :
    readMembers fuel (writeMember child ++ writeMembers children ++ rest) =
      some (child :: children, rest) := by
  induction children generalizing child fuel with
  | nil =>
    obtain ⟨key, tree⟩ := child
    simp only [writeMember, writeMembers, writeString, List.length_append, List.length_cons,
      List.length_nil] at bound ⊢
    cases fuel with
    | zero => omega
    | succ fuel =>
      have first := readsBack _ List.mem_cons_self fuel ('}' :: rest) (by simp only; omega)
      simp only [List.append_assoc, List.cons_append, List.nil_append, readMembers] at first ⊢
      -- the key is read first, up to its closing quote
      rw [readString_escape]
      simp only [first, String.ofList_toList]
  | cons next children inductionHypothesis =>
    obtain ⟨key, tree⟩ := child
    simp only [writeMember, writeMembers, writeString, List.length_append, List.length_cons,
      List.length_nil] at bound ⊢
    cases fuel with
    | zero => omega
    | succ fuel =>
      have first := readsBack _ List.mem_cons_self fuel
        (',' :: (writeMember next ++ writeMembers children ++ rest)) (by simp only; omega)
      have others := inductionHypothesis
        (fun c member => readsBack c (List.mem_cons_of_mem _ member)) fuel
        (by simp only [List.length_append]; omega)
      simp only [List.append_assoc, List.cons_append, List.nil_append, readMembers] at first others ⊢
      rw [readString_escape]
      simp only [first, others, Option.map_some, String.ofList_toList]

theorem readValue_writeNode {child : String × PTree} {children : List (String × PTree)}
    (readsBack : ∀ c ∈ child :: children, ReadsBack c.2) : ReadsBack (.node "" (child :: children)) := by
  intro fuel rest bound
  simp only [writeValue] at bound ⊢
  split
  · next unnamed =>
    simp only [unnamed, and_self, if_true, List.length_cons, List.cons_append] at bound ⊢
    cases fuel with
    | zero => omega
    | succ fuel =>
      have names : ∀ c ∈ child :: children, c.1 = "" := by
        simpa [List.forall_mem_cons] using unnamed
      simp only [readValue, readElements_write names readsBack fuel rest (by omega), Option.map_some]
  · next named =>
    rw [if_neg named] at bound
    simp only [List.length_cons, List.cons_append] at bound ⊢
    cases fuel with
    | zero => omega
    | succ fuel =>
      simp only [readValue, readMembers_write readsBack fuel rest (by omega), Option.map_some]

mutual

theorem readsBack : ∀ tree : PTree, tree.exclusive = true → ReadsBack tree
  | .node data [], _ => by
    intro fuel rest bound
    simp only [writeValue, writeString, List.length_append, List.length_cons] at bound ⊢
    cases fuel with
    | zero => omega
    | succ fuel =>
      simp only [List.cons_append, List.append_assoc, List.nil_append, readValue, readString_escape,
        Option.map_some, String.ofList_toList, PTree.leaf]
  | .node data (child :: children), exclusive => by
    simp only [PTree.exclusive, Bool.and_eq_true, Bool.or_eq_true, beq_iff_eq, List.isEmpty_cons,
      Bool.false_eq_true, or_false] at exclusive
    obtain ⟨noData, below⟩ := exclusive
    subst noData
    exact readValue_writeNode (readsBackChildren (child :: children) below)
termination_by structural tree => tree

theorem readsBackChildren : ∀ children : List (String × PTree),
    PTree.exclusiveChildren children = true → ∀ c ∈ children, ReadsBack c.2
  | [], _ => by simp
  | child :: rest, exclusive => by
    simp only [PTree.exclusiveChildren, Bool.and_eq_true] at exclusive
    rw [List.forall_mem_cons]
    exact ⟨readsBackChild child exclusive.1, readsBackChildren rest exclusive.2⟩
termination_by structural children => children

theorem readsBackChild : ∀ child : String × PTree,
    PTree.exclusiveChild child = true → ReadsBack child.2
  | (_, tree), exclusive => readsBack tree exclusive
termination_by structural child => child

end

/-! ## Lines -/

mutual

theorem newline_notMem_writeValue : ∀ tree : PTree, '\n' ∉ writeValue tree
  | .node data [] => by simp [writeValue, writeString, newline_notMem_escape]
  | .node data (child :: children) => by
    have first := newline_notMem_writeChild child
    have others := newline_notMem_writeChildren children
    simp only [writeValue]
    split <;> simp [first, others]
termination_by structural tree => tree

theorem newline_notMem_writeChildren : ∀ children : List (String × PTree),
    '\n' ∉ writeElements children ∧ '\n' ∉ writeMembers children
  | [] => by simp [writeElements, writeMembers]
  | child :: rest => by
    have first := newline_notMem_writeChild child
    have others := newline_notMem_writeChildren rest
    simp [writeElements, writeMembers, first, others]
termination_by structural children => children

theorem newline_notMem_writeChild : ∀ child : String × PTree,
    '\n' ∉ writeNested child ∧ '\n' ∉ writeMember child
  | (key, tree) => by
    have value := newline_notMem_writeValue tree
    simp [writeNested, writeMember, writeString, newline_notMem_escape, value]
termination_by structural child => child

end

/-- The codec: compact texts, one line each. -/
def compactJson : JsonCodec where
  readJson line :=
    match readValue (2 * line.length + 1) line with
    | some (tree, []) => some tree
    | _ => none
  writeJson tree := if tree.Writable then some (writeObject tree.children ++ ['\n']) else none

theorem readValue_writeObject {children : List (String × PTree)}
    (exclusive : PTree.exclusiveChildren children = true) (fuel : Nat)
    (bound : 2 * (writeObject children).length ≤ fuel) :
    readValue fuel (writeObject children) = some (.node "" children, []) := by
  cases fuel with
  | zero => cases children <;> simp [writeObject] at bound
  | succ fuel =>
    cases children with
    | nil =>
      simp only [writeObject, List.length_cons, List.length_nil] at bound
      cases fuel with
      | zero => omega
      | succ fuel => simp [writeObject, readValue, readMembers]
    | cons child children =>
      simp only [writeObject, List.length_cons, List.cons_append] at bound
      have members := readMembers_write (readsBackChildren _ exclusive) fuel [] (by omega)
      rw [List.append_nil] at members
      simp only [writeObject, List.cons_append, readValue, members, Option.map_some]

theorem newline_notMem_writeObject (children : List (String × PTree)) :
    '\n' ∉ writeObject children := by
  cases children with
  | nil => simp [writeObject]
  | cons child children =>
    have first := (newline_notMem_writeChild child).2
    have others := (newline_notMem_writeChildren children).2
    simp [writeObject, first, others]

theorem compactJson_lawful : compactJson.Lawful where
  refuses tree unwritable := if_neg unwritable
  inverts tree writable := by
    obtain ⟨data, children⟩ := tree
    obtain ⟨noData, exclusive⟩ := id writable
    simp only [PTree.data_node] at noData
    simp only [PTree.exclusive, Bool.and_eq_true] at exclusive
    subst noData
    refine ⟨writeObject children, if_pos writable, newline_notMem_writeObject children, ?_⟩
    simp only [compactJson]
    rw [readValue_writeObject exclusive.2 _ (by omega)]

end Uzel.Foundation.Json
