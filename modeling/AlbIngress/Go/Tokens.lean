import AlbIngress.Go.Strings

/-!
What `strings.Split`, `strings.TrimSpace` and `strconv.ParseInt` do on the token shapes the
annotation grammar builds: splitting on a separator inverts `strings.Join` by it, no piece
of a split holds the separator, `TrimSpace` leaves a trimmed string alone and trims what it
returns, and `ParseInt` reads a decimal numeral as its value and a token that starts with a
space as a syntax error.
-/

namespace AlbIngress.Go

/-! ### `strings.Split` -/

/-- No piece of a split holds the separator. -/
theorem not_mem_of_mem_splitOn {c : Char} : ∀ {l w : List Char}, w ∈ l.splitOn c → c ∉ w
  | [], w, h => by simp_all [List.splitOn_nil]
  | x :: xs, w, h => by
    rw [List.splitOn, List.splitOnP_cons] at h
    split_ifs at h with hx
    · rcases List.mem_cons.mp h with rfl | h
      · simp
      · exact not_mem_of_mem_splitOn h
    · obtain ⟨r, rs, hr⟩ := List.exists_cons_of_ne_nil (List.splitOnP_ne_nil (· == c) xs)
      rw [hr, List.modifyHead_cons] at h
      have hrs : ∀ v ∈ r :: rs, c ∉ v := fun v hv => not_mem_of_mem_splitOn (hr ▸ hv)
      rcases List.mem_cons.mp h with rfl | h
      · simp only [List.mem_cons, not_or]
        exact ⟨fun hcx => hx (by simp [hcx]), hrs r (.head _)⟩
      · exact hrs w (.tail _ h)

theorem not_mem_of_mem_split {s t : String} {c : Char} (h : t ∈ split s c) : c ∉ t.toList := by
  obtain ⟨w, hw, rfl⟩ := List.mem_map.mp h
  exact not_mem_of_mem_splitOn hw

theorem join_cons_ne_empty {e : String} (es : List String) (sep : String) (he : e ≠ "") :
    join (e :: es) sep ≠ "" := fun h => he <| String.ext <|
  (List.append_eq_nil.mp ((toList_join_cons e es sep).symm.trans (congrArg String.toList h))).1

/-- Splitting on `c` inverts the join by `c` of pieces without `c`. -/
theorem splitOn_append_flatMap {c : Char} :
    ∀ {e : List Char} {es : List (List Char)}, c ∉ e → (∀ t ∈ es, c ∉ t) →
      (e ++ es.flatMap (c :: ·)).splitOn c = e :: es
  | e, [], he, _ => by
    rw [List.flatMap_nil, List.append_nil, List.splitOn,
      List.splitOnP_eq_single _ _ fun x hx => by simpa using ne_of_mem_of_not_mem hx he]
  | e, t :: ts, he, hts => by
    rw [List.flatMap_cons, List.splitOn, List.cons_append,
      List.splitOnP_first _ _ (fun x hx => by simpa using ne_of_mem_of_not_mem hx he) c
        (by simp), ← List.splitOn,
      splitOn_append_flatMap (hts t (.head _)) fun u hu => hts u (.tail _ hu)]

/-- Splitting on `c` inverts `strings.Join` by `c`, on elements without `c`. -/
theorem split_join_char {c : Char} {elems : List String} (hne : elems ≠ [])
    (h : ∀ e ∈ elems, c ∉ e.toList) : split (join elems ⟨[c]⟩) c = elems := by
  obtain ⟨e, es, rfl⟩ := List.exists_cons_of_ne_nil hne
  have hflat : (es.flatMap fun t => String.toList ⟨[c]⟩ ++ t.toList) =
      (es.map String.toList).flatMap (c :: ·) := by
    simp [List.flatMap_map]
  rw [split, toList_join_cons, hflat, splitOn_append_flatMap (h e (.head _))
    (List.forall_mem_map.mpr fun t ht => h t (.tail _ ht))]
  simp only [List.map_cons, List.map_map]
  exact congrArg _ ((List.map_congr_left fun a _ => rfl).trans (List.map_id es))

/-- Joined by `", "`, every element after the first is split off with its leading space. -/
theorem split_join_comma_space {e : String} {es : List String}
    (h : ∀ t ∈ e :: es, ',' ∉ t.toList) :
    split (join (e :: es) ", ") ',' = e :: es.map (" " ++ ·) := by
  have hflat : (es.flatMap fun t => ", ".toList ++ t.toList) =
      (es.map fun t => ' ' :: t.toList).flatMap (',' :: ·) := by
    simp [List.flatMap_map]
  rw [split, toList_join_cons, hflat, splitOn_append_flatMap (h e (.head _))
    (List.forall_mem_map.mpr fun t ht =>
      List.not_mem_cons_of_ne_of_not_mem (by decide) (h t (.tail _ ht)))]
  simp only [List.map_cons, List.map_map]
  exact congrArg _ (List.map_congr_left fun a _ => rfl)

/-- A split has one piece more than the string has separators. -/
theorem length_splitOn (c : Char) : ∀ l : List Char, (l.splitOn c).length = l.count c + 1
  | [] => rfl
  | x :: xs => by
    rw [List.splitOn, List.splitOnP_cons, List.count_cons]
    have ih := length_splitOn c xs
    rw [List.splitOn] at ih
    split_ifs with hx
    · simp [ih, hx]
    · simp [ih, hx]

theorem length_split (s : String) (c : Char) : (split s c).length = s.toList.count c + 1 := by
  rw [split, List.length_map, length_splitOn]

/-- A string with exactly one `=` splits there into two parts without `=`. -/
theorem split_of_count_eq_one {t : String} (h : t.toList.count '=' = 1) :
    ∃ k v : String, split t '=' = [k, v] ∧ k ++ "=" ++ v = t ∧ '=' ∉ k.toList ∧
      '=' ∉ v.toList := by
  have hmem : '=' ∈ t.toList := List.count_pos_iff.mp (by omega)
  obtain ⟨a, b, hab⟩ := List.append_of_mem hmem
  have hcount : a.count '=' = 0 ∧ b.count '=' = 0 := by
    rw [hab, List.count_append, List.count_cons_self] at h
    omega
  have ha := List.count_eq_zero.mp hcount.1
  have hb := List.count_eq_zero.mp hcount.2
  have hsplit := @splitOn_append_flatMap '=' a [b] ha (by simpa using hb)
  simp only [List.flatMap_cons, List.flatMap_nil, List.append_nil] at hsplit
  refine ⟨⟨a⟩, ⟨b⟩, by rw [split, hab, hsplit]; rfl, String.ext ?_, ha, hb⟩
  show a ++ ['='] ++ b = t.toList
  rw [hab, List.append_assoc, List.singleton_append]

/-! ### `strings.TrimSpace` -/

/-- `s` has no white space, in the sense of `unicode.IsSpace`, at either end. -/
def Trimmed (s : String) : Prop :=
  s.toList.head?.all (fun c => !isSpace c) = true ∧
    s.toList.getLast?.all (fun c => !isSpace c) = true

instance (s : String) : Decidable (Trimmed s) := inferInstanceAs (Decidable (_ ∧ _))

theorem dropWhile_of_head? {p : Char → Bool} {l : List Char}
    (h : l.head?.all (fun c => !p c) = true) : l.dropWhile p = l := by
  cases l <;> simp_all [List.dropWhile]

theorem getLast?_of_dropWhile {p : Char → Bool} {c : Char} :
    ∀ {l : List Char}, (l.dropWhile p).getLast? = some c → l.getLast? = some c
  | [], h => h
  | x :: xs, h => by
    rw [List.dropWhile_cons] at h
    split at h
    · have := getLast?_of_dropWhile h
      cases xs with
      | nil => simp at this
      | cons y ys => rwa [List.getLast?_cons_cons]
    · exact h

theorem trimSpace_eq_self {s : String} (h : Trimmed s) : trimSpace s = s := by
  have hlast : s.toList.reverse.head?.all (fun c => !isSpace c) = true := by
    rw [List.head?_reverse]
    exact h.2
  simp only [trimSpace, dropWhile_of_head? h.1, dropWhile_of_head? hlast, List.reverse_reverse]
  rfl

theorem trimmed_trimSpace (s : String) : Trimmed (trimSpace s) := by
  have hfirst := List.head?_dropWhile_not isSpace s.toList
  have hlast := List.head?_dropWhile_not isSpace (s.toList.dropWhile isSpace).reverse
  refine ⟨?_, ?_⟩
  · show (List.reverse _).head?.all _ = true
    rw [List.head?_reverse]
    cases hx : ((s.toList.dropWhile isSpace).reverse.dropWhile isSpace).getLast? with
    | none => rfl
    | some c =>
      have hc := getLast?_of_dropWhile hx
      rw [List.getLast?_reverse] at hc
      simp only [hc] at hfirst
      simp [hfirst]
  · show (List.reverse _).getLast?.all _ = true
    rw [List.getLast?_reverse]
    cases hx : ((s.toList.dropWhile isSpace).reverse.dropWhile isSpace).head? with
    | none => rfl
    | some c =>
      simp only [hx] at hlast
      simp [hlast]

theorem mem_of_mem_trimSpace {s : String} {c : Char} (h : c ∈ (trimSpace s).toList) :
    c ∈ s.toList :=
  (List.dropWhile_suffix isSpace).subset
    (List.mem_reverse.mp ((List.dropWhile_suffix isSpace).subset (List.mem_reverse.mp h)))

theorem trimSpace_space_append (t : String) : trimSpace (" " ++ t) = trimSpace t := by
  simp only [trimSpace]
  rfl

/-! ### `strings.TrimSuffix`, `strings.ToLower` and `strings.Join` of two -/

@[simp] theorem toList_append (a b : String) : (a ++ b).toList = a.toList ++ b.toList := rfl

theorem join_pair (a b sep : String) : join [a, b] sep = a ++ sep ++ b := by
  apply String.ext
  show (join [a, b] sep).toList = (a ++ sep ++ b).toList
  rw [toList_join_cons, toList_append, toList_append, List.flatMap_singleton, List.append_assoc]

/-- Joining a list with a last element `b`: what comes before it, the separator, then `b`. -/
theorem toList_join_append_singleton (e : String) (es : List String) (b sep : String) :
    (join (e :: (es ++ [b])) sep).toList = (join (e :: es) sep).toList ++ sep.toList ++ b.toList := by
  rw [toList_join_cons, toList_join_cons, List.flatMap_append, List.flatMap_singleton,
    List.append_assoc, List.append_assoc]

/-- `TrimSuffix` drops the suffix a string was built with. -/
theorem trimSuffix_append (t suffix : String) : trimSuffix (t ++ suffix) suffix = t := by
  have hsuf : hasSuffix (t ++ suffix) suffix = true :=
    List.isSuffixOf_iff_suffix.mpr (List.suffix_append t.toList suffix.toList)
  rw [trimSuffix, if_pos hsuf, toList_append,
    List.take_left' (by rw [List.length_append, Nat.add_sub_cancel])]
  rfl

/-- A string whose last character is not `c` is kept by `TrimSuffix` of `c`. -/
theorem trimSuffix_of_getLast? {s : String} {c : Char} (h : s.toList.getLast? ≠ some c) :
    trimSuffix s ⟨[c]⟩ = s := by
  rw [trimSuffix, if_neg]
  intro hs
  obtain ⟨l, hl⟩ := List.isSuffixOf_iff_suffix.mp hs
  exact h (by rw [← hl]; simp)

theorem toLower_append (a b : String) : toLower (a ++ b) = toLower a ++ toLower b :=
  String.ext (List.map_append _ _ _)

@[simp] theorem toLower_dot : toLower "." = "." := by decide

/-! ### `strconv.ParseInt` on decimal numerals -/

/-- The value of a string of decimal digits, read as `ParseUint`'s loop reads it. -/
def decimalValue (ds : List Char) : Nat :=
  ds.foldl (fun n c => n * 10 + (c.toNat - '0'.toNat)) 0

/-- A non-empty string of the digits `0` to `9`: Go's decimal numerals, leading zeros
included. -/
def IsDecimal (ds : List Char) : Prop :=
  ds ≠ [] ∧ ∀ c ∈ ds, '0' ≤ c ∧ c ≤ '9'

instance (ds : List Char) : Decidable (IsDecimal ds) := inferInstanceAs (Decidable (_ ∧ _))

theorem le_foldl_digits (ds : List Char) (acc : Nat) :
    acc ≤ ds.foldl (fun n c => n * 10 + (c.toNat - '0'.toNat)) acc := by
  induction ds generalizing acc with
  | nil => exact le_rfl
  | cons c cs ih => exact le_trans (by dsimp only; omega) (ih _)

/-- Below the `int64` cutoff the digit loop never saturates and returns the value. -/
theorem parseUintLoop_digits :
    ∀ {ds : List Char} {acc : Nat}, (∀ c ∈ ds, '0' ≤ c ∧ c ≤ '9') →
      ds.foldl (fun n c => n * 10 + (c.toNat - '0'.toNat)) acc < 9223372036854775808 →
      parseUintLoop ds acc = some (ds.foldl (fun n c => n * 10 + (c.toNat - '0'.toNat)) acc)
  | [], _, _, _ => rfl
  | c :: cs, acc, hds, hv => by
    have hstep := le_foldl_digits cs (acc * 10 + (c.toNat - '0'.toNat))
    rw [List.foldl_cons] at hv ⊢
    have hmax : maxUint64 = 18446744073709551615 := rfl
    rw [parseUintLoop, if_pos (hds c (.head _)), if_neg (by omega), if_neg (by omega)]
    exact parseUintLoop_digits (fun x hx => hds x (.tail _ hx)) hv

/-- A token that does not start with a sign is read as an unsigned number. -/
theorem parseInt_unsigned {c : Char} (l : List Char) (hplus : c ≠ '+') (hminus : c ≠ '-') :
    parseInt ⟨c :: l⟩ = clampInt64 false (parseUint (c :: l)) := by
  unfold parseInt
  split <;> simp_all

theorem parseInt_decimal {ds : List Char} (h : IsDecimal ds)
    (hv : decimalValue ds < 9223372036854775808) : parseInt ⟨ds⟩ = decimalValue ds := by
  obtain ⟨c, cs, rfl⟩ := List.exists_cons_of_ne_nil h.1
  have hc := h.2 c (.head _)
  have hplus : c ≠ '+' := by rintro rfl; exact absurd hc.1 (by decide)
  have hminus : c ≠ '-' := by rintro rfl; exact absurd hc.1 (by decide)
  have hloop : parseUint (c :: cs) = some (decimalValue (c :: cs)) := by
    rw [parseUint, if_neg (List.cons_ne_nil c cs)]
    exact parseUintLoop_digits h.2 hv
  rw [parseInt_unsigned cs hplus hminus, hloop]
  simp [clampInt64, hv]

/-- A token that starts with a character other than a digit or a sign, a space for
instance, is a syntax error, and the callers keep `ParseInt`'s zero. -/
theorem parseInt_of_not_digit {c : Char} (l : List Char) (hc : ¬('0' ≤ c ∧ c ≤ '9'))
    (hplus : c ≠ '+') (hminus : c ≠ '-') : parseInt ⟨c :: l⟩ = 0 := by
  rw [parseInt_unsigned l hplus hminus, parseUint, if_neg (List.cons_ne_nil c l), parseUintLoop,
    if_neg hc]
  rfl

end AlbIngress.Go
