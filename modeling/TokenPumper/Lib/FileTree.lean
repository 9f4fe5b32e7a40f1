import Mathlib.Data.List.AList
import Mathlib.Data.List.TakeDrop

namespace FileTree
set_option autoImplicit true

/-- The names along a path, innermost first. -/
abbrev Path := List String

inductive Node
  | dir
  | file (bytes : List UInt8)
deriving DecidableEq, Repr

/-- The empty path is the working directory, which is there without a node of its own. -/
structure Tree where
  nodes : AList fun _ : Path => Node
  rooted : ∀ path, (nodes.lookup path).isSome →
    ∃ name dir, path = name :: dir ∧ (dir = [] ∨ nodes.lookup dir = some .dir)

namespace Tree

instance : DecidableEq Tree := fun t t' =>
  decidable_of_iff (t.nodes.entries = t'.nodes.entries) ⟨fun h => by
    obtain ⟨nodes, hrooted⟩ := t
    obtain ⟨nodes', hrooted'⟩ := t'
    obtain rfl : nodes = nodes' := AList.ext h
    rfl, fun h => congrArg (fun t => t.nodes.entries) h⟩

def lookup (t : Tree) (path : Path) : Option Node := t.nodes.lookup path

def IsDir (t : Tree) (path : Path) : Prop := path = [] ∨ t.lookup path = some .dir

instance (t : Tree) (path : Path) : Decidable (t.IsDir path) :=
  inferInstanceAs (Decidable (_ ∨ _))

def entries (t : Tree) (dir : Path) : List String :=
  t.nodes.entries.filterMap fun node =>
    match node.1 with
    | name :: parent => if parent = dir then some name else none
    | [] => none

def empty : Tree where
  nodes := ∅
  rooted := by
    intro path h
    rw [AList.lookup_empty] at h
    exact absurd h Bool.false_ne_true

/-- A new node in a directory. -/
def add (t : Tree) (name : String) (dir : Path) (node : Node) (hdir : t.IsDir dir)
    (hnew : t.lookup (name :: dir) = none) : Tree where
  nodes := t.nodes.insert (name :: dir) node
  rooted := by
    have hstill : ∀ d, t.IsDir d →
        d = [] ∨ (t.nodes.insert (name :: dir) node).lookup d = some .dir := by
      rintro d (rfl | hd)
      · exact .inl rfl
      · have hne : d ≠ name :: dir := by
          rintro rfl
          rw [hnew] at hd
          cases hd
        refine .inr ?_
        rw [AList.lookup_insert_ne hne]
        exact hd
    intro path h
    by_cases hp : path = name :: dir
    · exact ⟨name, dir, hp, hstill dir hdir⟩
    · rw [AList.lookup_insert_ne hp] at h
      obtain ⟨n, d, rfl, hd⟩ := t.rooted path h
      exact ⟨n, d, rfl, hstill d hd⟩

def removeFile (t : Tree) (path : Path) (hfile : t.lookup path = some (.file bytes)) : Tree where
  nodes := t.nodes.erase path
  rooted := by
    intro p h
    have hp : p ≠ path := by
      rintro rfl
      rw [AList.lookup_erase] at h
      exact absurd h Bool.false_ne_true
    rw [AList.lookup_erase_ne hp] at h
    obtain ⟨n, d, rfl, hd⟩ := t.rooted p h
    refine ⟨n, d, rfl, hd.imp_right fun hd => ?_⟩
    have hne : d ≠ path := by
      rintro rfl
      have hboth := hd.symm.trans hfile
      cases hboth
    rwa [AList.lookup_erase_ne hne]

/-- A file in a directory, in place of the file that may be there. -/
def put (t : Tree) (name : String) (dir : Path) (bytes : List UInt8) (hdir : t.IsDir dir)
    (hfile : t.lookup (name :: dir) ≠ some .dir) : Tree where
  nodes := t.nodes.insert (name :: dir) (.file bytes)
  rooted := by
    have hstill : ∀ d, t.IsDir d →
        d = [] ∨ (t.nodes.insert (name :: dir) (.file bytes)).lookup d = some .dir := by
      intro d hd
      apply hd.imp_right
      intro hd
      have hne : d ≠ name :: dir := fun heq => hfile (heq ▸ hd)
      rw [AList.lookup_insert_ne hne]
      exact hd
    intro path h
    by_cases hp : path = name :: dir
    · exact ⟨name, dir, hp, hstill dir hdir⟩
    · rw [AList.lookup_insert_ne hp] at h
      obtain ⟨n, d, rfl, hd⟩ := t.rooted path h
      exact ⟨n, d, rfl, hstill d hd⟩

variable {t : Tree} {name : String} {dir path path' : Path} {node : Node}

@[simp] theorem lookup_nil (t : Tree) : t.lookup [] = none := by
  by_contra h
  obtain ⟨name, dir, hp, -⟩ := t.rooted [] (Option.isSome_iff_ne_none.2 h)
  cases hp

theorem lookup_add_self (hdir : t.IsDir dir) (hnew : t.lookup (name :: dir) = none) :
    (t.add name dir node hdir hnew).lookup (name :: dir) = some node :=
  AList.lookup_insert _

theorem lookup_add_of_ne (hdir : t.IsDir dir) (hnew : t.lookup (name :: dir) = none)
    (h : path ≠ name :: dir) : (t.add name dir node hdir hnew).lookup path = t.lookup path :=
  AList.lookup_insert_ne h

theorem lookup_add_of_some (hdir : t.IsDir dir) (hnew : t.lookup (name :: dir) = none)
    (h : t.lookup path = some node') :
    (t.add name dir node hdir hnew).lookup path = some node' := by
  have hne : path ≠ name :: dir := by
    rintro rfl
    rw [hnew] at h
    cases h
  rw [lookup_add_of_ne hdir hnew hne, h]

theorem lookup_removeFile_self (hfile : t.lookup path = some (.file bytes)) :
    (t.removeFile path hfile).lookup path = none :=
  AList.lookup_erase _ _

theorem lookup_removeFile_of_ne (hfile : t.lookup path = some (.file bytes)) (h : path' ≠ path) :
    (t.removeFile path hfile).lookup path' = t.lookup path' :=
  AList.lookup_erase_ne h

theorem lookup_put_self (hdir : t.IsDir dir) (hfile : t.lookup (name :: dir) ≠ some .dir) :
    (t.put name dir bytes hdir hfile).lookup (name :: dir) = some (.file bytes) :=
  AList.lookup_insert _

theorem lookup_put_of_ne (hdir : t.IsDir dir) (hfile : t.lookup (name :: dir) ≠ some .dir)
    (h : path ≠ name :: dir) : (t.put name dir bytes hdir hfile).lookup path = t.lookup path :=
  AList.lookup_insert_ne h

theorem mem_entries : name ∈ t.entries dir ↔ (t.lookup (name :: dir)).isSome := by
  rw [lookup, AList.lookup_isSome, AList.mem_keys, AList.keys, List.keys, entries,
    List.mem_filterMap, List.mem_map]
  constructor
  · rintro ⟨node, hmem, h⟩
    refine ⟨node, hmem, ?_⟩
    split at h
    · rename_i n parent heq
      split at h
      · rename_i hd
        obtain rfl := Option.some.inj h
        rw [heq, hd]
      · cases h
    · cases h
  · rintro ⟨node, hmem, h⟩
    refine ⟨node, hmem, ?_⟩
    rw [h]
    exact if_pos rfl

theorem isDir_root (t : Tree) : t.IsDir [] := .inl rfl

theorem isDir_of_isSome (h : (t.lookup (name :: dir)).isSome) : t.IsDir dir := by
  obtain ⟨n, d, hp, hd⟩ := t.rooted _ h
  cases hp
  exact hd

end Tree

/-- `Path::extension` of a name: what follows the last dot, unless that dot begins the name. -/
def extension (name : String) : Option String :=
  if name = ".." then none
  else
    match name.toList.reverse.span (· ≠ '.') with
    | (_, []) => none
    | (_, [_]) => none
    | (after, _) => some (String.ofList after.reverse)

theorem extension_json {stem : String} (h : stem ≠ "") :
    extension (stem ++ ".json") = some "json" := by
  have hrev : (stem ++ ".json").toList.reverse =
      'n' :: 'o' :: 's' :: 'j' :: '.' :: stem.toList.reverse := by simp
  have hne : stem ++ ".json" ≠ ".." := by
    intro hdots
    have hlast := congrArg (fun s => s.toList.getLast?) hdots
    simp at hlast
  have hstem : stem.toList.reverse ≠ [] := by simpa using h
  rw [extension, if_neg hne, hrev]
  cases hs : stem.toList.reverse with
  | nil => exact absurd hs hstem
  | cons c cs => simp [List.span_eq_takeWhile_dropWhile]

def display (path : Path) : String := "/".intercalate path.reverse

end FileTree
