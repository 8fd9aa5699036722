import AlbIngress.Go.Tokens

/-!
`targetGroup.Parse` of package `targetgroup`: the target-group annotations of an ingress,
their defaults, the check of the target type, and the `target-group-attributes` list. The
list is rejected as a whole, with an error that names every offending token, as soon as one
non-empty token is not exactly one `Key=Value` pair; otherwise every token becomes one
`attributes.Set(key, value)` call.

The `parser` package, `util.NewAWSStringSlice` and the resolver's configuration are outside
the source. An ingress's annotations are read through `AnnotationInterface`, whose reads are
`none` when `parser.GetStringAnnotation` or `parser.GetInt64Annotation` fails;
`NewAWSStringSlice` is a parameter, and every statement holds for any tokenizer.
`albelbv2.TargetGroupAttributes` is the list of its `Set` calls, in order.
-/

namespace AlbIngress.TargetGroup

open AlbIngress.Go

/-- The `Set(key, value)` calls made on an `albelbv2.TargetGroupAttributes`, in order. -/
abbrev TargetGroupAttributes := List (String × String)

/-- `targetgroup.Config`. -/
structure Config where
  attributes : TargetGroupAttributes
  backendProtocol : String
  healthyThresholdCount : Int
  successCodes : String
  targetType : String
  unhealthyThresholdCount : Int
  deriving DecidableEq, Repr

/-- The errors `Parse` returns: `errors.NewInvalidAnnotationContent(name, value)`, or a
`fmt.Errorf` message. -/
inductive ParseError
  | invalidAnnotationContent (name value : String)
  | message (text : String)
  deriving DecidableEq, Repr

/-- The annotations of one ingress, read by name. -/
structure AnnotationInterface where
  getString : String → Option String
  getInt64 : String → Option Int

def defaultBackendProtocol : String := "HTTP"
def defaultHealthyThresholdCount : Int := 2
def defaultUnhealthyThresholdCount : Int := 2
def defaultSuccessCodes : String := "200"

/-- `Dummy`: HTTP, thresholds of 2, success code 200, the `instance` target type and no
attributes. -/
def dummy : Config := ⟨[], "HTTP", 2, "200", "instance", 2⟩

/-- The loop over the raw attributes: the `Set` calls and the tokens `badAttrs` collects, each
in the order of the loop. An empty token is skipped. -/
def attributeLoop : List String → TargetGroupAttributes × List String
  | [] => ([], [])
  | rawAttr :: rawAttrs =>
    let (attributes, badAttrs) := attributeLoop rawAttrs
    if rawAttr = "" then (attributes, badAttrs)
    else match split rawAttr '=' with
      | [k, v] => ((k, v) :: attributes, badAttrs)
      | _ => (attributes, rawAttr :: badAttrs)

/-! ### The attribute loop -/

/-- A token the attribute loop rejects: not empty, and not exactly one `Key=Value` pair. -/
def isMalformed (t : String) : Bool :=
  t != "" && t.toList.count '=' != 1

theorem isMalformed_iff (t : String) :
    isMalformed t = true ↔ t ≠ "" ∧ t.toList.count '=' ≠ 1 := by
  simp [isMalformed]

/-- A pair splits into two parts, which `split` can only do at exactly one `=`. -/
theorem count_eq_one_of_split {t k v : String} (h : split t '=' = [k, v]) :
    t.toList.count '=' = 1 := by
  have := length_split t '='
  rw [h, List.length_cons, List.length_cons, List.length_nil] at this
  omega

/-- The loop rejects exactly the malformed tokens, in order. -/
theorem attributeLoop_badAttrs (rawAttrs : List String) :
    (attributeLoop rawAttrs).2 = rawAttrs.filter isMalformed := by
  induction rawAttrs with
  | nil => rfl
  | cons t ts ih =>
    by_cases ht : t = ""
    · subst ht
      simp only [attributeLoop, if_true, ih, List.filter_cons,
        show isMalformed "" = false from rfl, Bool.false_eq_true, if_false]
    simp only [attributeLoop, ht, if_false]
    split
    · next k v hs =>
      have hmal : isMalformed t = false := Bool.eq_false_iff.mpr fun hm =>
        ((isMalformed_iff t).mp hm).2 (count_eq_one_of_split hs)
      simp only [ih, List.filter_cons, hmal, Bool.false_eq_true, if_false]
    · next hs =>
      have hmal : isMalformed t = true := (isMalformed_iff t).mpr ⟨ht, fun hc => by
        obtain ⟨k, v, hkv, -⟩ := split_of_count_eq_one hc
        exact hs k v hkv⟩
      simp only [ih, List.filter_cons, hmal, if_true]

/-- On a list without malformed tokens, the loop sets one attribute per non-empty token, in
order, split at its `=`. -/
theorem attributeLoop_attributes {rawAttrs : List String}
    (h : ∀ t ∈ rawAttrs, t ≠ "" → t.toList.count '=' = 1) :
    (attributeLoop rawAttrs).1.map (fun kv => kv.1 ++ "=" ++ kv.2) = rawAttrs.filter (· ≠ "") ∧
      ∀ kv ∈ (attributeLoop rawAttrs).1, '=' ∉ kv.1.toList ∧ '=' ∉ kv.2.toList := by
  induction rawAttrs with
  | nil => simp [attributeLoop]
  | cons t ts ih =>
    obtain ⟨ih₁, ih₂⟩ := ih fun u hu => h u (.tail _ hu)
    by_cases ht : t = ""
    · simp only [attributeLoop, ht, if_true, List.filter_cons, ne_eq, not_true_eq_false,
        decide_False, Bool.false_eq_true, if_false]
      exact ⟨ih₁, ih₂⟩
    · obtain ⟨k, v, hs, hkv, hk, hv⟩ := split_of_count_eq_one (h t (.head _) ht)
      simp only [attributeLoop, ht, if_false, hs, List.map_cons, ih₁, List.filter_cons,
        ne_eq, not_false_eq_true, decide_True, if_true, hkv]
      refine ⟨trivial, ?_⟩
      rintro kv (_ | ⟨_, hkv'⟩)
      · exact ⟨hk, hv⟩
      · exact ih₂ kv hkv'

section Parse

variable (newAWSStringSlice : String → List String)

/-- The `target-group-attributes` block of `Parse`. -/
def parseAttributes (tgAttr : String) : Except ParseError TargetGroupAttributes :=
  let (attributes, badAttrs) := attributeLoop (newAWSStringSlice tgAttr)
  if badAttrs.length > 0 then
    .error (.message ("Unable to parse `" ++ join badAttrs ", " ++ "` into Key=Value pair(s)"))
  else .ok attributes

/-- `targetGroup.Parse`, with `defaultTargetType` the resolver's `cfg.DefaultTargetType`. -/
def parse (defaultTargetType : String) (ing : AnnotationInterface) : Except ParseError Config :=
  let targetType := (ing.getString "target-type").getD defaultTargetType
  if targetType ≠ "instance" ∧ targetType ≠ "pod" then
    .error (.invalidAnnotationContent "target-type" targetType)
  else
    let backendProtocol := (ing.getString "backend-protocol").getD defaultBackendProtocol
    let healthyThresholdCount :=
      (ing.getInt64 "healthy-threshold-count").getD defaultHealthyThresholdCount
    let unhealthyThresholdCount :=
      (ing.getInt64 "unhealthy-threshold-count").getD defaultUnhealthyThresholdCount
    let successCodes := (ing.getString "successCodes").getD defaultSuccessCodes
    let successCodes := (ing.getString "success-codes").getD successCodes
    let attributes : Except ParseError TargetGroupAttributes :=
      match ing.getString "target-group-attributes" with
      | none => .ok []
      | some tgAttr => parseAttributes newAWSStringSlice tgAttr
    attributes.map fun attributes =>
      { attributes, backendProtocol, healthyThresholdCount, successCodes, targetType,
        unhealthyThresholdCount }

/-- An attribute list with a malformed token is rejected as a whole, with an error that names
every malformed token, in order. -/
theorem parseAttributes_of_malformed {tgAttr : String}
    (h : ∃ t ∈ newAWSStringSlice tgAttr, isMalformed t = true) :
    parseAttributes newAWSStringSlice tgAttr =
      .error (.message ("Unable to parse `" ++
        join ((newAWSStringSlice tgAttr).filter isMalformed) ", " ++ "` into Key=Value pair(s)")) := by
  obtain ⟨t, ht, hm⟩ := h
  have hpos : 0 < ((newAWSStringSlice tgAttr).filter isMalformed).length :=
    List.length_pos.mpr (List.ne_nil_of_mem (List.mem_filter.mpr ⟨ht, hm⟩))
  simp only [parseAttributes, ← attributeLoop_badAttrs] at hpos ⊢
  rw [if_pos hpos]

/-- An attribute list without a malformed token sets one attribute per non-empty token, in
order, with the text before the `=` as key and the text after it as value. -/
theorem parseAttributes_of_wellFormed {tgAttr : String}
    (h : ∀ t ∈ newAWSStringSlice tgAttr, t ≠ "" → t.toList.count '=' = 1) :
    ∃ attributes, parseAttributes newAWSStringSlice tgAttr = .ok attributes ∧
      attributes.map (fun kv => kv.1 ++ "=" ++ kv.2) = (newAWSStringSlice tgAttr).filter (· ≠ "") ∧
      ∀ kv ∈ attributes, '=' ∉ kv.1.toList ∧ '=' ∉ kv.2.toList := by
  have hbad : (attributeLoop (newAWSStringSlice tgAttr)).2 = [] := by
    rw [attributeLoop_badAttrs, List.filter_eq_nil_iff]
    exact fun t ht hm => ((isMalformed_iff t).mp hm).2 (h t ht ((isMalformed_iff t).mp hm).1)
  refine ⟨(attributeLoop (newAWSStringSlice tgAttr)).1, ?_, attributeLoop_attributes h⟩
  simp only [parseAttributes, hbad, List.length_nil, lt_irrefl, if_false]

/-- The malformed token is named in the error, and the well-formed one is not. -/
example :
    parseAttributes (split · ',') "stickiness.enabled=true,not-a-kv" =
      .error (.message "Unable to parse `not-a-kv` into Key=Value pair(s)") := rfl

/-- Without annotations, `Parse` returns the defaults, for either accepted default target
type. -/
theorem parse_defaults {defaultTargetType : String}
    (h : defaultTargetType = "instance" ∨ defaultTargetType = "pod") :
    parse newAWSStringSlice defaultTargetType ⟨fun _ => none, fun _ => none⟩ =
      .ok ⟨[], defaultBackendProtocol, defaultHealthyThresholdCount, defaultSuccessCodes,
        defaultTargetType, defaultUnhealthyThresholdCount⟩ := by
  rcases h with rfl | rfl <;> rfl

/-- `Dummy` is what `Parse` returns for an ingress without annotations when the default
target type is `instance`. -/
example :
    parse newAWSStringSlice "instance" ⟨fun _ => none, fun _ => none⟩ = .ok dummy :=
  rfl

/-- A target type other than `instance` and `pod` is rejected, with the annotation's name and
value. -/
theorem parse_invalid_targetType {defaultTargetType : String} {ing : AnnotationInterface}
    (h : (ing.getString "target-type").getD defaultTargetType ≠ "instance" ∧
      (ing.getString "target-type").getD defaultTargetType ≠ "pod") :
    parse newAWSStringSlice defaultTargetType ing =
      .error (.invalidAnnotationContent "target-type"
        ((ing.getString "target-type").getD defaultTargetType)) := by
  rw [parse, if_pos h]

/-- With an accepted target type, `Parse` fails exactly when the attribute annotation is
present and holds a malformed token. -/
theorem parse_error_iff {defaultTargetType : String} {ing : AnnotationInterface}
    (htype : ¬((ing.getString "target-type").getD defaultTargetType ≠ "instance" ∧
      (ing.getString "target-type").getD defaultTargetType ≠ "pod")) :
    (∃ e, parse newAWSStringSlice defaultTargetType ing = .error e) ↔
      ∃ tgAttr, ing.getString "target-group-attributes" = some tgAttr ∧
        ∃ t ∈ newAWSStringSlice tgAttr, isMalformed t = true := by
  rw [parse, if_neg htype]
  cases hattr : ing.getString "target-group-attributes" with
  | none => simp [Except.map]
  | some tgAttr =>
    by_cases hm : ∃ t ∈ newAWSStringSlice tgAttr, isMalformed t = true
    · simp [parseAttributes_of_malformed newAWSStringSlice hm, Except.map, hm]
    · obtain ⟨attributes, hok, -⟩ := parseAttributes_of_wellFormed newAWSStringSlice fun t ht hne =>
        of_not_not fun hc => hm ⟨t, ht, (isMalformed_iff t).mpr ⟨hne, hc⟩⟩
      simp [hok, Except.map, hm]

theorem parse_error_iff_malformed :
    ∃ e, parse (split · ',') "instance"
      ⟨fun k => if k = "target-group-attributes" then some "a=1,b" else none, fun _ => none⟩ =
        .error e :=
  (parse_error_iff (split · ',') (by decide)).mpr ⟨"a=1,b", rfl, "b", by decide, by decide⟩

end Parse

end AlbIngress.TargetGroup
