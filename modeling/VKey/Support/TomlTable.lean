import Mathlib.Data.List.Induction
import Mathlib.Data.List.Nodup
import Mathlib.Data.String.Basic

/-!
# TOML documents

A table keeps its entries in the order of the keys.  A node is read as a value of some type;
integers, floating point numbers and booleans are converted where nothing is lost, strings are not.
-/

namespace VKey

inductive TomlNode where
  | string (text : String)
  | integer (value : Int)
  /-- A floating point number, with the 64-bit integer that it is equal to, if there is one. -/
  | floatingPoint (whole : Option Int)
  | boolean (value : Bool)
  /-- A date or a time. -/
  | moment
  | array (items : List TomlNode)
  | table (entries : List (String × TomlNode))

abbrev TomlTable := List (String × TomlNode)

namespace TomlNode

def asTable : TomlNode → Option TomlTable
  | table entries => some entries
  | _ => none

def asArray : TomlNode → Option (List TomlNode)
  | array items => some items
  | _ => none

def asString : TomlNode → Option String
  | string text => some text
  | _ => none

def asBoolean : TomlNode → Option Bool
  | boolean value => some value
  | _ => none

def asInteger : TomlNode → Option Int
  | integer value => some value
  | _ => none

/-- `value<bool>` -/
def valueBool : TomlNode → Option Bool
  | boolean value => some value
  | integer value => some (value != 0)
  | _ => none

/-- `value<int64_t>` -/
def valueInt64 : TomlNode → Option Int
  | integer value => some value
  | floatingPoint whole => whole
  | boolean value => some (if value then 1 else 0)
  | _ => none

/-- `value<int>`; what does not fit is no value. -/
def valueInt (node : TomlNode) : Option Int :=
  node.valueInt64.bind fun value => if -0x80000000 ≤ value ∧
    value ≤ 0x7FFFFFFF then some value else none

end TomlNode

namespace TomlTable

def find? (table : TomlTable) (key : String) : Option TomlNode := table.lookup key

/-- The table in which the key has the node; a new key is put in its place in the order. -/
def insertOrAssign (key : String) (node : TomlNode) : TomlTable → TomlTable
  | [] => [(key, node)]
  | (k, old) :: rest =>
      if k = key then (key, node) :: rest
      else if key < k then (key, node) :: (k, old) :: rest
      else (k, old) :: insertOrAssign key node rest

def erase (key : String) (table : TomlTable) : TomlTable := table.filter fun entry => entry.1 != key

/-- The table in which the key has the node if it had none. -/
def insert (key : String) (node : TomlNode) (table : TomlTable) : TomlTable :=
  if (table.find? key).isSome then table else table.insertOrAssign key node

def assignAll (table : TomlTable) (entries : List (String × TomlNode)) : TomlTable :=
  entries.foldl (fun table entry => insertOrAssign entry.1 entry.2 table) table

def tableAt (table : TomlTable) (key : String) : Option TomlTable :=
  (table.find? key).bind TomlNode.asTable

def arrayAt (table : TomlTable) (key : String) : Option (List TomlNode) :=
  (table.find? key).bind TomlNode.asArray

def boolOr (table : TomlTable) (key : String) (default : Bool) : Bool :=
  ((table.find? key).bind TomlNode.valueBool).getD default

def intOr (table : TomlTable) (key : String) (default : Int) : Int :=
  ((table.find? key).bind TomlNode.valueInt).getD default

def int64Or (table : TomlTable) (key : String) (default : Int) : Int :=
  ((table.find? key).bind TomlNode.valueInt64).getD default

def stringOr (table : TomlTable) (key : String) (default : String) : String :=
  ((table.find? key).bind TomlNode.asString).getD default

/-- The keys are in order, so that none occurs twice. -/
def Sorted (table : TomlTable) : Prop := table.Pairwise fun a b => a.1 < b.1

/-- The tables have the same at the keys. -/
def Agree (keys : List String) (table table' : TomlTable) : Prop :=
  ∀ key ∈ keys, table'.find? key = table.find? key

theorem Agree.mono {keys keys' : List String} {table table' : TomlTable}
    (h : Agree keys table table') (hkeys : keys' ⊆ keys) : Agree keys' table table' :=
  fun key hkey => h key (hkeys hkey)

theorem Agree.tableAt {keys : List String} {table table' : TomlTable} (h : Agree keys table table')
    {key : String} (hkey : key ∈ keys) : table'.tableAt key = table.tableAt key := by
  rw [TomlTable.tableAt, TomlTable.tableAt, h key hkey]

theorem Agree.arrayAt {keys : List String} {table table' : TomlTable} (h : Agree keys table table')
    {key : String} (hkey : key ∈ keys) : table'.arrayAt key = table.arrayAt key := by
  rw [TomlTable.arrayAt, TomlTable.arrayAt, h key hkey]

@[simp] theorem find?_nil (key : String) : find? [] key = none := rfl

theorem find?_cons (entry : String × TomlNode) (table : TomlTable) (key : String) :
    find? (entry :: table) key = if key = entry.1 then some entry.2 else table.find? key := by
  rw [find?, List.lookup_cons]
  by_cases h : key = entry.1
  · rw [if_pos h, beq_iff_eq.mpr h]
  · rw [if_neg h, beq_false_of_ne h]
    rfl

@[simp] theorem find?_insertOrAssign (table : TomlTable) (key other : String) (node : TomlNode) :
    (table.insertOrAssign key node).find? other = if other =
      key then some node else table.find? other := by
  induction table with
  | nil => exact find?_cons (key, node) [] other
  | cons entry rest ih =>
      rw [insertOrAssign]
      by_cases hkey : entry.1 = key
      · rw [if_pos hkey, find?_cons, find?_cons, hkey]
        by_cases hother : other = key
        · rw [if_pos hother, if_pos hother]
        · rw [if_neg hother, if_neg hother, if_neg hother]
      · rw [if_neg hkey]
        by_cases hlt : key < entry.1
        · rw [if_pos hlt, find?_cons]
        · rw [if_neg hlt, find?_cons, ih, find?_cons]
          by_cases hother : other = entry.1
          · rw [if_pos hother, if_pos hother, if_neg (hother.trans_ne hkey)]
          · rw [if_neg hother, if_neg hother]

@[simp] theorem find?_erase (table : TomlTable) (key other : String) :
    (table.erase key).find? other = if other = key then none else table.find? other := by
  induction table with
  | nil => rw [erase, List.filter_nil, find?_nil, ite_self]
  | cons entry rest ih =>
      rw [erase] at ih ⊢
      by_cases hentry : entry.1 = key
      · rw [List.filter_cons_of_neg
          (by rw [hentry, bne_self_eq_false]; exact Bool.false_ne_true), ih, find?_cons, hentry]
        split_ifs <;> rfl
      · rw [List.filter_cons_of_pos (by rwa [bne_iff_ne]), find?_cons, find?_cons, ih]
        by_cases hother : other = entry.1
        · rw [if_pos hother, if_pos hother, if_neg (hother.trans_ne hentry)]
        · rw [if_neg hother, if_neg hother]

theorem Sorted.nil : Sorted [] := List.Pairwise.nil

theorem mem_insertOrAssign {table : TomlTable} {key : String} {node : TomlNode}
    {entry : String × TomlNode} (h : entry ∈ table.insertOrAssign key node) :
    entry = (key, node) ∨ entry ∈ table := by
  induction table with
  | nil => exact Or.inl (List.mem_singleton.mp h)
  | cons first rest ih =>
      rw [insertOrAssign] at h
      split_ifs at h with hkey hlt
      · exact (List.mem_cons.mp h).imp_right (List.mem_cons_of_mem first)
      · exact List.mem_cons.mp h
      · rcases List.mem_cons.mp h with h | h
        · exact Or.inr (h ▸ List.mem_cons_self)
        · exact (ih h).imp_right (List.mem_cons_of_mem first)

theorem Sorted.insertOrAssign {table : TomlTable} (h : table.Sorted)
    (key : String) (node : TomlNode) :
    (table.insertOrAssign key node).Sorted := by
  induction table with
  | nil => exact List.pairwise_singleton _ _
  | cons first rest ih =>
      obtain ⟨hfirst, hrest⟩ := List.pairwise_cons.mp h
      rw [TomlTable.insertOrAssign]
      split_ifs with hkey hlt
      · exact List.pairwise_cons.mpr ⟨fun entry hentry => hkey ▸ hfirst entry hentry, hrest⟩
      · refine List.pairwise_cons.mpr ⟨fun entry hentry => ?_, h⟩
        rcases List.mem_cons.mp hentry with rfl | hentry
        · exact hlt
        · exact hlt.trans (hfirst entry hentry)
      · refine List.pairwise_cons.mpr ⟨fun entry hentry => ?_, ih hrest⟩
        rcases mem_insertOrAssign hentry with rfl | hentry
        · exact lt_of_le_of_ne (not_lt.mp hlt) hkey
        · exact hfirst entry hentry

theorem Sorted.mem_iff {table : TomlTable} (h : table.Sorted) {entry : String × TomlNode} :
    entry ∈ table ↔ table.find? entry.1 = some entry.2 := by
  induction table with
  | nil => exact iff_of_false List.not_mem_nil (by rw [find?_nil]; nofun)
  | cons first rest ih =>
      obtain ⟨hfirst, hrest⟩ := List.pairwise_cons.mp h
      rw [List.mem_cons, find?_cons, ih hrest]
      by_cases hkey : entry.1 = first.1
      · rw [if_pos hkey, Option.some.injEq]
        constructor
        · rintro (rfl | hmem)
          · rfl
          · exact absurd (hfirst entry ((ih hrest).mpr hmem)) (hkey ▸ lt_irrefl entry.1)
        · exact fun hnode => Or.inl (Prod.ext hkey hnode.symm)
      · rw [if_neg hkey]
        exact or_iff_right fun heq => hkey (congrArg Prod.fst heq)

theorem Sorted.assignAll {table : TomlTable} (h : table.Sorted)
    (entries : List (String × TomlNode)) :
    (table.assignAll entries).Sorted := by
  induction entries generalizing table with
  | nil => exact h
  | cons entry rest ih => exact ih (h.insertOrAssign entry.1 entry.2)

theorem find?_assignAll_of_notMem {table : TomlTable}
    {entries : List (String × TomlNode)} {key : String}
    (h : key ∉ entries.map Prod.fst) : (table.assignAll entries).find? key = table.find? key := by
  induction entries generalizing table with
  | nil => rfl
  | cons entry rest ih =>
      rw [List.map_cons, List.mem_cons, not_or] at h
      refine (ih h.2).trans ?_
      rw [find?_insertOrAssign, if_neg h.1]

theorem find?_assignAll {table : TomlTable} {entries : List (String × TomlNode)}
    (hnodup : (entries.map Prod.fst).Nodup) {entry : String × TomlNode} (h : entry ∈ entries) :
    (table.assignAll entries).find? entry.1 = some entry.2 := by
  induction entries generalizing table with
  | nil => exact absurd h List.not_mem_nil
  | cons first rest ih =>
      rw [List.map_cons, List.nodup_cons] at hnodup
      rcases List.mem_cons.mp h with rfl | h
      · refine (find?_assignAll_of_notMem hnodup.1).trans ?_
        rw [find?_insertOrAssign, if_pos rfl]
      · exact ih hnodup.2 h

/-- The table of entries with different keys has these entries. -/
theorem mem_assignAll_nil {entries : List (String × TomlNode)}
    (hnodup : (entries.map Prod.fst).Nodup)
    {entry : String × TomlNode} : entry ∈ assignAll [] entries ↔ entry ∈ entries := by
  rw [(Sorted.nil.assignAll entries).mem_iff]
  constructor
  · intro h
    by_cases hkey : entry.1 ∈ entries.map Prod.fst
    · obtain ⟨other, hother, heq⟩ := List.mem_map.mp hkey
      have hnode : (assignAll [] entries).find? other.1 = some other.2 :=
        find?_assignAll hnodup hother
      rw [heq, h, Option.some.injEq] at hnode
      rwa [Prod.ext heq.symm hnode]
    · rw [find?_assignAll_of_notMem hkey, find?_nil] at h
      cases h
  · exact find?_assignAll hnodup

theorem Sorted.nodup {table : TomlTable} (h : table.Sorted) : table.Nodup :=
  h.imp fun hlt heq => absurd (congrArg Prod.fst heq) hlt.ne

/-- The table of entries with different keys is these entries in order. -/
theorem perm_assignAll_nil {entries : List (String × TomlNode)}
    (hnodup : (entries.map Prod.fst).Nodup) :
    (assignAll [] entries).Perm entries :=
  (List.perm_ext_iff_of_nodup (Sorted.nil.assignAll entries).nodup
    (List.Nodup.of_map Prod.fst hnodup)).mpr
    fun _ => mem_assignAll_nil hnodup

theorem foldl_insert_nil {entries : List (String × TomlNode)}
    (hnodup : (entries.map Prod.fst).Nodup) :
    entries.foldl (fun table entry => insert entry.1 entry.2 table) [] = assignAll [] entries := by
  induction entries using List.reverseRecOn with
  | nil => rfl
  | append_singleton rest entry ih =>
      rw [List.map_append, List.nodup_append] at hnodup
      obtain ⟨hrest, -, hdisjoint⟩ := hnodup
      have hkey : entry.1 ∉ rest.map Prod.fst := fun hmem =>
        hdisjoint entry.1 hmem entry.1 List.mem_cons_self rfl
      rw [List.foldl_append, ih hrest, assignAll, assignAll, List.foldl_append, List.foldl_cons,
        List.foldl_nil, List.foldl_cons, List.foldl_nil, insert, ← assignAll,
        find?_assignAll_of_notMem hkey, find?_nil, Option.isSome_none, if_neg Bool.false_ne_true]

@[simp] theorem tableAt_insertOrAssign (table : TomlTable) (key other : String) (node : TomlNode) :
    (table.insertOrAssign key node).tableAt other =
      if other = key then node.asTable else table.tableAt other := by
  rw [tableAt, find?_insertOrAssign]
  split_ifs <;> rfl

@[simp] theorem tableAt_erase (table : TomlTable) (key other : String) :
    (table.erase key).tableAt other = if other = key then none else table.tableAt other := by
  rw [tableAt, find?_erase]
  split_ifs <;> rfl

@[simp] theorem arrayAt_insertOrAssign (table : TomlTable) (key other : String) (node : TomlNode) :
    (table.insertOrAssign key node).arrayAt other =
      if other = key then node.asArray else table.arrayAt other := by
  rw [arrayAt, find?_insertOrAssign]
  split_ifs <;> rfl

@[simp] theorem arrayAt_erase (table : TomlTable) (key other : String) :
    (table.erase key).arrayAt other = if other = key then none else table.arrayAt other := by
  rw [arrayAt, find?_erase]
  split_ifs <;> rfl

@[simp] theorem boolOr_insertOrAssign (table : TomlTable) (key other : String) (node : TomlNode)
    (default : Bool) : (table.insertOrAssign key node).boolOr other default =
      if other = key then node.valueBool.getD default else table.boolOr other default := by
  rw [boolOr, find?_insertOrAssign]
  split_ifs <;> rfl

@[simp] theorem boolOr_erase (table : TomlTable) (key other : String) (default : Bool) :
    (table.erase key).boolOr other default =
      if other = key then default else table.boolOr other default := by
  rw [boolOr, find?_erase]
  split_ifs <;> rfl

@[simp] theorem intOr_insertOrAssign (table : TomlTable) (key other : String) (node : TomlNode)
    (default : Int) : (table.insertOrAssign key node).intOr other default =
      if other = key then node.valueInt.getD default else table.intOr other default := by
  rw [intOr, find?_insertOrAssign]
  split_ifs <;> rfl

@[simp] theorem stringOr_insertOrAssign (table : TomlTable) (key other default : String)
    (node : TomlNode) : (table.insertOrAssign key node).stringOr other default =
      if other = key then node.asString.getD default else table.stringOr other default := by
  rw [stringOr, find?_insertOrAssign]
  split_ifs <;> rfl

@[simp] theorem intOr_erase (table : TomlTable) (key other : String) (default : Int) :
    (table.erase key).intOr other default = if other =
      key then default else table.intOr other default := by
  rw [intOr, find?_erase]
  split_ifs <;> rfl

end TomlTable

end VKey
