import Mathlib.Data.List.Basic
import Mathlib.Data.String.Basic

/-! # Property trees

A property tree is a string with an ordered list of named subtrees; names may repeat and may be
empty.  A path names at every level the first child of that name, which is also the child that is
overwritten when a value is put at the path.

`JsonCodec` is a pair of a JSON reader and a compact JSON writer for such trees.  What a program may
rely on about them is `JsonCodec.Lawful`.
-/

namespace Uzel.Foundation

inductive PTree where
  | node (data : String) (children : List (String × PTree))

namespace PTree

def data : PTree → String
  | .node data _ => data

def children : PTree → List (String × PTree)
  | .node _ children => children

def empty : PTree := .node "" []

/-- A tree that is only a string. -/
def leaf (data : String) : PTree := .node data []

/-- The first child of the given name. -/
def find (key : String) (tree : PTree) : Option PTree := tree.children.lookup key

def getChild : List String → PTree → Option PTree
  | [], tree => some tree
  | key :: path, tree => (tree.find key).bind (getChild path)

/-- The string at a path, or the default when the path does not exist. -/
def get (path : List String) (default : String) (tree : PTree) : String :=
  match tree.getChild path with
  | some child => child.data
  | none => default

/-- Change the first child of the given name; a missing one is created at the end. -/
def alterFirst (key : String) (change : PTree → PTree) :
    List (String × PTree) → List (String × PTree)
  | [] => [(key, change empty)]
  | (name, child) :: rest =>
    if name = key then (name, change child) :: rest else (name, child) :: alterFirst key change rest

/-- Set the string at a path, creating the nodes on the way that do not exist. -/
def put : List String → String → PTree → PTree
  | [], value, .node _ children => .node value children
  | key :: path, value, .node data children => .node data (alterFirst key (put path value) children)

/-- Replace the first child of the given name by a tree. -/
def putChild : PTree → String → PTree → PTree
  | .node data children, key, child => .node data (alterFirst key (fun _ => child) children)

/-- Append a child that is only a string. -/
def add (key value : String) : PTree → PTree
  | .node data children => .node data (children ++ [(key, leaf value)])

/-- Remove all children of the given name. -/
def erase (key : String) : PTree → PTree
  | .node data children => .node data (children.filter fun child => child.1 ≠ key)

mutual

/-- No node has both data and children. -/
def exclusive : PTree → Bool
  | .node data children => (data == "" || children.isEmpty) && exclusiveChildren children
termination_by structural tree => tree

def exclusiveChildren : List (String × PTree) → Bool
  | [] => true
  | child :: rest => exclusiveChild child && exclusiveChildren rest
termination_by structural children => children

def exclusiveChild : String × PTree → Bool
  | (_, tree) => tree.exclusive
termination_by structural child => child

end

/-- The trees that have a JSON text: the root carries no data and no node carries both. -/
def Writable (tree : PTree) : Prop := tree.data = "" ∧ tree.exclusive = true

instance (tree : PTree) : Decidable tree.Writable := inferInstanceAs (Decidable (_ ∧ _))

@[simp] theorem data_node (data : String) (children : List (String × PTree)) :
    (PTree.node data children).data = data := rfl
@[simp] theorem children_node (data : String) (children : List (String × PTree)) :
    (PTree.node data children).children = children := rfl
@[simp] theorem data_leaf (data : String) : (leaf data).data = data := rfl
@[simp] theorem data_put_nil (value : String) (tree : PTree) : (tree.put [] value).data = value := by
  cases tree; rfl
@[simp] theorem getChild_nil (tree : PTree) : tree.getChild [] = some tree := rfl
@[simp] theorem getChild_cons (key : String) (path : List String) (tree : PTree) :
    tree.getChild (key :: path) = (tree.find key).bind (getChild path) := rfl

theorem lookup_alterFirst_self (key : String) (change : PTree → PTree)
    (children : List (String × PTree)) :
    (alterFirst key change children).lookup key =
      some (change ((children.lookup key).getD empty)) := by
  induction children with
  | nil => simp [alterFirst]
  | cons child rest inductionHypothesis =>
    obtain ⟨name, child⟩ := child
    by_cases same : name = key
    · simp [alterFirst, same]
    · have different : (key == name) = false := by simpa using Ne.symm same
      simp [alterFirst, same, List.lookup_cons, different, inductionHypothesis]

theorem lookup_alterFirst_ne {key other : String} (different : other ≠ key) (change : PTree → PTree)
    (children : List (String × PTree)) :
    (alterFirst key change children).lookup other = children.lookup other := by
  induction children with
  | nil =>
    have unequal : (other == key) = false := by simpa using different
    simp [alterFirst, List.lookup_cons, unequal]
  | cons child rest inductionHypothesis =>
    obtain ⟨name, child⟩ := child
    by_cases same : name = key
    · have unequal : (other == key) = false := by simpa using different
      simp [alterFirst, same, List.lookup_cons, unequal]
    · simp [alterFirst, same, List.lookup_cons, inductionHypothesis]

theorem find_put_self (key : String) (path : List String) (value : String) (tree : PTree) :
    (tree.put (key :: path) value).find key = some (((tree.find key).getD empty).put path value) := by
  obtain ⟨data, children⟩ := tree
  exact lookup_alterFirst_self key _ children

theorem find_put_ne {key other : String} (different : other ≠ key) (path : List String)
    (value : String) (tree : PTree) :
    (tree.put (key :: path) value).find other = tree.find other := by
  obtain ⟨data, children⟩ := tree
  exact lookup_alterFirst_ne different _ children

theorem getChild_put_ne {key other : String} (different : other ≠ key) (path otherPath : List String)
    (value : String) (tree : PTree) :
    (tree.put (key :: path) value).getChild (other :: otherPath) =
      tree.getChild (other :: otherPath) := by
  simp [find_put_ne different]

/-- What was put at a path is what is read from it. -/
theorem get_put_self (path : List String) (value default : String) (tree : PTree) :
    (tree.put path value).get path default = value := by
  have stored : ∃ child, (tree.put path value).getChild path = some child ∧ child.data = value := by
    induction path generalizing tree with
    | nil => exact ⟨_, rfl, data_put_nil value tree⟩
    | cons key path inductionHypothesis =>
      obtain ⟨child, found, holds⟩ := inductionHypothesis ((tree.find key).getD empty)
      exact ⟨child, by simp [find_put_self, found], holds⟩
  obtain ⟨child, found, holds⟩ := stored
  simp [get, found, holds]

theorem get_put_ne {key other : String} (different : other ≠ key) (path otherPath : List String)
    (value default : String) (tree : PTree) :
    (tree.put (key :: path) value).get (other :: otherPath) default =
      tree.get (other :: otherPath) default := by
  simp only [get, getChild_put_ne different]

/-- Below one child, names that differ do not disturb each other. -/
theorem get_put_sibling {key name other : String} (different : other ≠ name) (value default : String)
    (tree : PTree) :
    (tree.put [key, name] value).get [key, other] default = tree.get [key, other] default := by
  simp only [get, getChild_cons, find_put_self, Option.bind_some, find_put_ne different]
  cases found : tree.find key with
  | none => rfl
  | some child =>
    cases inner : child.find other with
    | none => simp [inner]
    | some grandchild => simp [inner]

theorem find_eq_none_iff {key : String} {tree : PTree} :
    tree.find key = none ↔ ∀ child ∈ tree.children, child.1 ≠ key := by
  obtain ⟨data, children⟩ := tree
  simp only [find, children_node, List.lookup_eq_none_iff, bne_iff_ne]
  exact forall₂_congr fun _ _ => ne_comm

theorem find_erase_self (key : String) (tree : PTree) : (tree.erase key).find key = none := by
  obtain ⟨data, children⟩ := tree
  rw [find_eq_none_iff]
  intro child member
  simpa using (List.mem_filter.mp member).2

theorem alterFirst_of_absent {key : String} {children : List (String × PTree)}
    (absent : ∀ child ∈ children, child.1 ≠ key) (change : PTree → PTree) :
    alterFirst key change children = children ++ [(key, change empty)] := by
  induction children with
  | nil => rfl
  | cons child rest inductionHypothesis =>
    obtain ⟨name, child⟩ := child
    have different : name ≠ key := absent (name, child) (by simp)
    simp [alterFirst, different, inductionHypothesis fun child member => absent child (by simp [member])]

/-- A child put under a fresh name is found, and erasing it restores the tree. -/
theorem find_putChild (key : String) (child tree : PTree) :
    (tree.putChild key child).find key = some child := by
  obtain ⟨data, children⟩ := tree
  exact lookup_alterFirst_self key _ children

theorem erase_putChild {key : String} {tree : PTree} (absent : tree.find key = none) (child : PTree) :
    (tree.putChild key child).erase key = tree := by
  obtain ⟨data, children⟩ := tree
  rw [find_eq_none_iff] at absent
  simp only [children_node] at absent
  simp only [putChild, erase, alterFirst_of_absent absent, List.filter_append, node.injEq, true_and]
  have kept : children.filter (fun child => decide (child.1 ≠ key)) = children := by
    rw [List.filter_eq_self]
    intro child member
    simpa using absent child member
  rw [kept]
  simp

theorem exclusive_node {data : String} {children : List (String × PTree)} :
    (PTree.node data children).exclusive = true ↔
      (data = "" ∨ children = []) ∧ exclusiveChildren children = true := by
  simp [exclusive]

theorem exclusiveChildren_iff {children : List (String × PTree)} :
    exclusiveChildren children = true ↔ ∀ child ∈ children, child.2.exclusive = true := by
  induction children with
  | nil => simp [exclusiveChildren]
  | cons child rest inductionHypothesis =>
    rw [exclusiveChildren, Bool.and_eq_true, inductionHypothesis, List.forall_mem_cons, exclusiveChild]

/-- A child of the list is as it was, or it is the changed one. -/
theorem mem_alterFirst {key : String} {change : PTree → PTree} {children : List (String × PTree)}
    {child : String × PTree} (member : child ∈ alterFirst key change children) :
    child ∈ children ∨ child.2 = change ((children.lookup key).getD empty) := by
  induction children with
  | nil =>
    rw [alterFirst, List.mem_singleton] at member
    exact .inr (by simp [member])
  | cons first rest inductionHypothesis =>
    obtain ⟨name, first⟩ := first
    by_cases same : name = key
    · simp only [alterFirst, same, if_true, List.mem_cons] at member
      rcases member with rfl | later
      · exact .inr (by simp [same])
      · exact .inl (List.mem_cons_of_mem _ later)
    · have different : (key == name) = false := by simpa using Ne.symm same
      simp only [alterFirst, same, if_false, List.mem_cons] at member
      rcases member with rfl | later
      · exact .inl List.mem_cons_self
      · rw [List.lookup_cons, different]
        exact (inductionHypothesis later).imp_left (List.mem_cons_of_mem _)

/-- A string that is not empty has no children next to it, so another one may take its place. -/
theorem exclusive_put {path : List String} {tree : PTree} (present : tree.get path "" ≠ "")
    (exclusive : tree.exclusive = true) (value : String) : (tree.put path value).exclusive = true := by
  induction path generalizing tree with
  | nil =>
    obtain ⟨data, children⟩ := tree
    obtain ⟨alone, below⟩ := exclusive_node.mp exclusive
    exact exclusive_node.mpr ⟨.inr (alone.resolve_left present), below⟩
  | cons key path inductionHypothesis =>
    obtain ⟨data, children⟩ := tree
    obtain ⟨alone, below⟩ := exclusive_node.mp exclusive
    rw [exclusiveChildren_iff] at below
    cases found : children.lookup key with
    | none => simp [get, find, found] at present
    | some child =>
      have member : (key, child) ∈ children := by
        obtain ⟨before, after, rfl, _⟩ := List.lookup_eq_some_iff.mp found
        simp
      have nonempty : children ≠ [] := List.ne_nil_of_mem member
      rw [put, exclusive_node, exclusiveChildren_iff]
      refine ⟨.inl (alone.resolve_right nonempty), ?_⟩
      intro other changed
      rcases mem_alterFirst changed with same | put
      · exact below other same
      · rw [put, found]
        apply inductionHypothesis _ (below _ member)
        simpa [get, find, found] using present

theorem writable_put {key : String} {path : List String} {tree : PTree}
    (present : tree.get (key :: path) "" ≠ "") (writable : tree.Writable) (value : String) :
    (tree.put (key :: path) value).Writable := by
  refine ⟨?_, exclusive_put present writable.2 value⟩
  obtain ⟨data, children⟩ := tree
  exact writable.1

end PTree

/-- A JSON reader for one text and a JSON writer without pretty printing.  `none` stands for the
exception that is raised instead. -/
structure JsonCodec where
  readJson : List Char → Option PTree
  writeJson : PTree → Option (List Char)

/-- The writer refuses the trees that have no JSON text, and otherwise writes a single line with its
line feed that the reader reads back. -/
structure JsonCodec.Lawful (json : JsonCodec) : Prop where
  refuses : ∀ tree, ¬ tree.Writable → json.writeJson tree = none
  inverts : ∀ tree, tree.Writable → ∃ line, json.writeJson tree = some (line ++ ['\n']) ∧
    '\n' ∉ line ∧ json.readJson line = some tree

end Uzel.Foundation
