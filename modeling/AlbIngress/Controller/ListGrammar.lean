import AlbIngress.Go.Tokens
import AlbIngress.Controller.Annotations

/-!
The list grammar of the annotations, against the decoders that implement it.

`stringToAwsSlice` reads a comma-separated list, trims each token and drops the empty ones;
it inverts `strings.Join` by `","` and by `", "` on tokens that are not empty, hold no comma
and carry no white space at either end, and every token it returns is of that kind.
`stringToTags` decodes a token with exactly one `=` into its key and value. `parsePort`
splits on `","` without trimming or dropping, and keeps `ParseInt`'s zero for a token it
cannot read: it returns the ports of a list joined by `","`, and a zero for every port
after the first of a list joined by `", "`.
-/

namespace AlbIngress.Controller

open AlbIngress.Go

/-! ### `stringToAwsSlice` -/

/-- A token of a comma-separated list: not empty, without a comma, and with no white space
at either end. -/
def ListToken (t : String) : Prop :=
  t ≠ "" ∧ ',' ∉ t.toList ∧ Trimmed t

instance (t : String) : Decidable (ListToken t) := inferInstanceAs (Decidable (_ ∧ _ ∧ _))

@[simp] theorem stringToAwsSlice_empty : stringToAwsSlice "" = [] := rfl

/-- Every token `stringToAwsSlice` returns is a list token. -/
theorem listToken_of_mem_stringToAwsSlice {s t : String} (h : t ∈ stringToAwsSlice s) :
    ListToken t := by
  obtain ⟨hmem, hne⟩ := List.mem_filter.mp h
  obtain ⟨u, hu, rfl⟩ := List.mem_map.mp hmem
  exact ⟨by simpa using hne, fun hc => not_mem_of_mem_split hu (mem_of_mem_trimSpace hc),
    trimmed_trimSpace u⟩

/-- Trimming and dropping empties keep a list of list tokens. -/
theorem filter_map_trimSpace {L : List String} (hL : ∀ t ∈ L, ListToken t) :
    (L.map trimSpace).filter (· ≠ "") = L := by
  rw [List.map_congr_left fun t ht => trimSpace_eq_self (hL t ht).2.2, List.map_id',
    List.filter_eq_self.mpr fun t ht => by simpa using (hL t ht).1]

theorem stringToAwsSlice_join_comma {L : List String} (hL : ∀ t ∈ L, ListToken t) :
    stringToAwsSlice (join L ",") = L := by
  cases L with
  | nil => rfl
  | cons e es =>
    rw [stringToAwsSlice, show "," = ⟨[',']⟩ from rfl,
      split_join_char (List.cons_ne_nil e es) fun t ht => (hL t ht).2.1, filter_map_trimSpace hL]

theorem stringToAwsSlice_join_comma_space {L : List String} (hL : ∀ t ∈ L, ListToken t) :
    stringToAwsSlice (join L ", ") = L := by
  cases L with
  | nil => rfl
  | cons e es =>
    have hspace : (es.map (" " ++ ·)).map trimSpace = es.map trimSpace := by
      rw [List.map_map]
      exact List.map_congr_left fun t _ => trimSpace_space_append t
    rw [stringToAwsSlice, split_join_comma_space fun t ht => (hL t ht).2.1, List.map_cons,
      hspace, ← List.map_cons, filter_map_trimSpace hL]

/-- `stringToAwsSlice` inverts comma-joining on list tokens, by `","` and by `", "`; what it
returns is list tokens, so it is a fixed point of joining and reading back. -/
theorem stringToAwsSlice_inverts_join (L : List String) (hL : ∀ t ∈ L, ListToken t)
    (s : String) :
    stringToAwsSlice (join L ",") = L ∧ stringToAwsSlice (join L ", ") = L ∧
      (∀ t ∈ stringToAwsSlice s, ListToken t) ∧
      stringToAwsSlice (join (stringToAwsSlice s) ",") = stringToAwsSlice s :=
  ⟨stringToAwsSlice_join_comma hL, stringToAwsSlice_join_comma_space hL,
    fun _ => listToken_of_mem_stringToAwsSlice,
    stringToAwsSlice_join_comma fun _ => listToken_of_mem_stringToAwsSlice⟩

theorem stringToAwsSlice_inverts_join_web :
    (∀ t ∈ ["subnet-a", "web tier"], ListToken t) ∧
      stringToAwsSlice (join ["subnet-a", "web tier"] ", ") = ["subnet-a", "web tier"] ∧
      stringToAwsSlice " a, ,b ,,\tc " = ["a", "b", "c"] :=
  ⟨by decide, (stringToAwsSlice_inverts_join ["subnet-a", "web tier"] (by decide) "").2.1,
    by decide⟩

/-! ### `stringToTags` -/

/-- On a tags string whose every token has exactly one `=`, `stringToTags` returns one tag
per token, in order, with the text before the `=` as key and the text after it as value. -/
theorem stringToTags_of_single_equals {s : String}
    (h : ∀ t ∈ stringToAwsSlice s, t.toList.count '=' = 1) :
    (stringToTags s).map (fun tag => tag.key ++ "=" ++ tag.value) = stringToAwsSlice s ∧
      ∀ tag ∈ stringToTags s, '=' ∉ tag.key.toList ∧ '=' ∉ tag.value.toList := by
  unfold stringToTags
  generalize stringToAwsSlice s = L at h ⊢
  induction L with
  | nil => simp
  | cons t ts ih =>
    obtain ⟨k, v, hsplit, hkv, hk, hv⟩ := split_of_count_eq_one (h t (.head _))
    have ht : t ≠ "" := by
      rintro rfl
      simp at h
    obtain ⟨ih₁, ih₂⟩ := ih fun u hu => h u (.tail _ hu)
    simp only [List.filterMap_cons, ht, if_false, hsplit]
    refine ⟨by simp [hkv, ih₁], ?_⟩
    rintro tag (_ | ⟨_, htag⟩)
    · exact ⟨hk, hv⟩
    · exact ih₂ tag htag

theorem stringToTags_of_single_equals_web :
    (∀ t ∈ stringToAwsSlice "Team=web, Env=prod", t.toList.count '=' = 1) ∧
      (stringToTags "Team=web, Env=prod").map (fun tag => tag.key ++ "=" ++ tag.value) =
        ["Team=web", "Env=prod"] :=
  ⟨by decide, (stringToTags_of_single_equals (s := "Team=web, Env=prod") (by decide)).1.trans
    (by decide)⟩

/-! ### `parsePort` -/

/-- A numeral of a listen port: decimal digits, leading zeros allowed, whose value is a port
in `1..65535`. -/
def PortNumeral (ds : List Char) : Prop :=
  IsDecimal ds ∧ 1 ≤ decimalValue ds ∧ decimalValue ds ≤ 65535

instance (ds : List Char) : Decidable (PortNumeral ds) := inferInstanceAs (Decidable (_ ∧ _))

theorem comma_not_mem_of_portNumeral {ds : List Char} (h : PortNumeral ds) : ',' ∉ ds :=
  fun hc => absurd (h.1.2 ',' hc).1 (by decide)

theorem comma_not_mem_of_portNumerals {ns : List (List Char)} (h : ∀ d ∈ ns, PortNumeral d) :
    ∀ t ∈ ns.map String.mk, ',' ∉ t.toList :=
  List.forall_mem_map.mpr fun d hd => comma_not_mem_of_portNumeral (h d hd)

theorem parseInt_portNumeral {ds : List Char} (h : PortNumeral ds) :
    parseInt ⟨ds⟩ = decimalValue ds :=
  parseInt_decimal h.1 (by have := h.2.2; omega)

/-- A port annotation joined by `","` from port numerals gives their ports, in order. -/
theorem parsePort_join_comma (c : String) {ns : List (List Char)} (hne : ns ≠ [])
    (h : ∀ n ∈ ns, PortNumeral n) :
    parsePort (join (ns.map String.mk) ",") c = ns.map fun n => (decimalValue n : Int) := by
  obtain ⟨n, ns', rfl⟩ := List.exists_cons_of_ne_nil hne
  have hp : join ((n :: ns').map String.mk) "," ≠ "" :=
    join_cons_ne_empty _ _ fun he => (h n (.head _)).1.1 (congrArg String.toList he)
  rw [parsePort, if_neg fun hc => hp hc.1, if_neg fun hc => hp hc.1, show "," = ⟨[',']⟩ from rfl,
    split_join_char (by simp) (comma_not_mem_of_portNumerals h), List.map_map]
  exact List.map_congr_left fun d hd => parseInt_portNumeral (h d hd)

theorem parsePort_join_comma_web :
    PortNumeral ['8', '0'] ∧ PortNumeral ['4', '4', '3'] ∧
      parsePort (join ([['8', '0'], ['4', '4', '3']].map String.mk) ",") "" = [80, 443] :=
  ⟨by decide, by decide,
    (parsePort_join_comma "" (List.cons_ne_nil _ _) (by decide)).trans (by decide)⟩

/-- A port annotation joined by `", "`: the port after every comma starts with a space, which
`ParseInt` rejects, and `parsePort` keeps its zero. -/
theorem parsePort_join_comma_space (c : String) (n : List Char) (ns : List (List Char))
    (h : ∀ d ∈ n :: ns, PortNumeral d) :
    parsePort (join ((n :: ns).map String.mk) ", ") c =
      (decimalValue n : Int) :: ns.map fun _ => 0 := by
  have hp : join ((n :: ns).map String.mk) ", " ≠ "" :=
    join_cons_ne_empty _ _ fun he => (h n (.head _)).1.1 (congrArg String.toList he)
  rw [parsePort, if_neg fun hc => hp hc.1, if_neg fun hc => hp hc.1, List.map_cons,
    split_join_comma_space (comma_not_mem_of_portNumerals h), List.map_cons, parseInt_portNumeral (h n (.head _)), List.map_map, List.map_map]
  exact congrArg _ (List.map_congr_left fun d _ => show parseInt ⟨' ' :: d⟩ = 0 from
    parseInt_of_not_digit d (by decide) (by decide) (by decide))

theorem parsePort_join_comma_space_web :
    PortNumeral ['8', '0'] ∧ PortNumeral ['4', '4', '3'] ∧ parsePort "80, 443" "" = [80, 0] :=
  ⟨by decide, by decide,
    parsePort_join_comma_space "" ['8', '0'] [['4', '4', '3']] (by decide)⟩

/-- Nothing bounds a port, and a trailing comma adds a zero. -/
example : parsePort "99999" "" = [99999] ∧ parsePort "80," "" = [80, 0] := by decide

end AlbIngress.Controller
