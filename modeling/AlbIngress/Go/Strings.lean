import Mathlib.Data.List.Sort
import Mathlib.Data.String.Basic

/-!
The Go library functions the controller calls on strings, as they behave on the values it
passes them: `strings.Split` with a one-character separator, `strings.TrimSpace`,
`strings.HasPrefix`, `strings.HasSuffix`, `strings.TrimSuffix`, `strings.ToLower`,
`strings.Join`, `strconv.ParseInt(s, 10, 64)` and `sort.Sort` on an `AWSStringSlice`.
Each is written on the characters of the string, so that a fact about a token list is
proved by induction on characters and a concrete input is evaluated by `decide`.
-/

namespace AlbIngress.Go

/-- `unicode.IsSpace`: the Latin-1 spaces, then the `White_Space` characters above Latin-1. -/
def isSpace (c : Char) : Bool :=
  match c.toNat with
  | 0x09 | 0x0A | 0x0B | 0x0C | 0x0D | 0x20 | 0x85 | 0xA0 => true
  | 0x1680 | 0x2028 | 0x2029 | 0x202F | 0x205F | 0x3000 => true
  | n => 0x2000 ≤ n && n ≤ 0x200A

/-- `strings.TrimSpace`. -/
def trimSpace (s : String) : String :=
  ⟨((s.toList.dropWhile isSpace).reverse.dropWhile isSpace).reverse⟩

/-- `strings.Split(s, sep)` for a one-character separator; `Split("", ",")` is `[""]`. -/
def split (s : String) (sep : Char) : List String :=
  (s.toList.splitOn sep).map String.mk

/-- `strings.HasPrefix(s, prefix)`. -/
def hasPrefix (s pre : String) : Bool :=
  pre.toList.isPrefixOf s.toList

/-- `strings.HasSuffix(s, suffix)`. -/
def hasSuffix (s suffix : String) : Bool :=
  suffix.toList.isSuffixOf s.toList

/-- `strings.TrimSuffix(s, suffix)`: `s` without `suffix` when it ends with it. -/
def trimSuffix (s suffix : String) : String :=
  if hasSuffix s suffix then ⟨s.toList.take (s.toList.length - suffix.toList.length)⟩ else s

/-- `strings.ToLower` on the ASCII letters. Go lowers the other Unicode letters too; a DNS
name holds none. -/
def toLower (s : String) : String :=
  ⟨s.toList.map Char.toLower⟩

/-- `strings.Join(elems, sep)`: the first element, then every later one preceded by `sep`. -/
def join : List String → String → String
  | [], _ => ""
  | e :: es, sep => ⟨e.toList ++ es.flatMap fun t => sep.toList ++ t.toList⟩

@[simp] theorem toList_join_cons (e : String) (es : List String) (sep : String) :
    (join (e :: es) sep).toList = e.toList ++ es.flatMap fun t => sep.toList ++ t.toList := rfl

/-! ### `strconv.ParseInt(s, 10, 64)` -/

/-- The largest `uint64`, which `ParseUint` returns on overflow. -/
def maxUint64 : Nat := 2 ^ 64 - 1

/-- The digit loop of `strconv.ParseUint` in base 10: `none` is a syntax error. The loop
returns the saturated value at the first overflow, before it reads the characters after it. -/
def parseUintLoop : List Char → Nat → Option Nat
  | [], n => some n
  | c :: cs, n =>
    if '0' ≤ c ∧ c ≤ '9' then
      if maxUint64 / 10 + 1 ≤ n then some maxUint64
      else if maxUint64 < n * 10 + (c.toNat - '0'.toNat) then some maxUint64
      else parseUintLoop cs (n * 10 + (c.toNat - '0'.toNat))
    else none

/-- `strconv.ParseUint(s, 10, 64)` up to the kind of its error: the empty string is a
syntax error. -/
def parseUint (s : List Char) : Option Nat :=
  if s = [] then none else parseUintLoop s 0

/-- How `ParseInt` turns the unsigned result into an `int64`: zero on a syntax error,
clamped to the `int64` range, with cutoff `1 << 63`, on overflow. -/
def clampInt64 (neg : Bool) : Option Nat → Int
  | none => 0
  | some un =>
    if !neg && 9223372036854775808 ≤ un then 9223372036854775807
    else if neg && 9223372036854775808 < un then -9223372036854775808
    else if neg then -(un : Int) else un

/-- The value `strconv.ParseInt(s, 10, 64)` returns; its error is dropped by the callers. -/
def parseInt (s : String) : Int :=
  match s.toList with
  | [] => 0
  | '+' :: rest => clampInt64 false (parseUint rest)
  | '-' :: rest => clampInt64 true (parseUint rest)
  | cs => clampInt64 false (parseUint cs)

/-! ### `sort.Sort(AWSStringSlice(out))`

Go compares strings bytewise, and UTF-8 byte order is code point order, so the order is
that of `String`. Comparing through `toList` keeps it computable by `decide`. -/

/-- String order decided on the character lists. -/
def decStringLe : DecidableRel fun a b : String => a ≤ b := fun a b =>
  decidable_of_iff (a.toList ≤ b.toList) String.le_iff_toList_le.symm

/-- `sort.Sort` on an `AWSStringSlice`: the sorted permutation, which for strings does not
depend on the algorithm. -/
def sortStrings (l : List String) : List String :=
  @List.insertionSort String (· ≤ ·) decStringLe l

theorem sortStrings_perm (l : List String) : (sortStrings l).Perm l :=
  @List.perm_insertionSort String (· ≤ ·) decStringLe l

theorem sorted_sortStrings (l : List String) : (sortStrings l).Sorted (· ≤ ·) :=
  @List.sorted_insertionSort String (· ≤ ·) decStringLe _ _ l

@[simp] theorem mem_sortStrings {l : List String} {x : String} :
    x ∈ sortStrings l ↔ x ∈ l :=
  (sortStrings_perm l).mem_iff

@[simp] theorem sortStrings_singleton (x : String) : sortStrings [x] = [x] := rfl

@[simp] theorem sortStrings_eq_nil {l : List String} : sortStrings l = [] ↔ l = [] := by
  rw [← List.length_eq_zero, (sortStrings_perm l).length_eq, List.length_eq_zero]

/-- Sorting forgets the order of its input. -/
theorem sortStrings_eq_of_perm {l₁ l₂ : List String} (h : l₁.Perm l₂) :
    sortStrings l₁ = sortStrings l₂ :=
  List.eq_of_perm_of_sorted (((sortStrings_perm l₁).trans h).trans (sortStrings_perm l₂).symm)
    (sorted_sortStrings l₁) (sorted_sortStrings l₂)

example : sortStrings ["subnet-b", "subnet-a", "sg-1"] = ["sg-1", "subnet-a", "subnet-b"] := by
  decide

end AlbIngress.Go
