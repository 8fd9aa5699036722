import AlbIngress.Controller.Resolvers

/-!
`ALBController.parseAnnotations`: the negative cache, the defaults it writes into the
caller's map, and the chain of decoders. Every failure after the cache lookup stores the
string `"error"` under the map's cache key; a later call whose key hits returns without
looking further.

The cache key is `"annotations " + awsutil.Prettify(SortedMap(annotations))`. `Prettify`
is the AWS SDK's printer and is taken as a parameter `prettify`; every statement here
holds for any printer.
-/

namespace AlbIngress.Controller

open AlbIngress.Go

/-- `SortedMap(annotations)`: the pairs in key order. -/
def sortedMap (m : AnnotationMap) : AnnotationMap :=
  @List.insertionSort (String × String) (fun a b => a.1 ≤ b.1) (fun a b => decStringLe a.1 b.1) m

/-- What a call of `parseAnnotations` returns, `(*annotationsT, error)`, with its effects on
the caller's map and on the cache. `err` is a `Failure.panic` when a resolver panicked and
the call did not return. -/
structure ParseOutcome where
  resp : Option AnnotationsT
  err : Option Failure
  annotations : AnnotationMap
  cache : Cache

/-- The cache key of an annotation map. -/
def annotationsCacheKey (prettify : AnnotationMap → String) (m : AnnotationMap) : String :=
  "annotations " ++ prettify (sortedMap m)

/-- The defaults `parseAnnotations` writes into the caller's map before it validates it. -/
def withDefaults (m : AnnotationMap) : AnnotationMap :=
  let m := if m.get successCodesKey = "" then m.set successCodesKey "200" else m
  if m.get backendProtocolKey = "" then m.set backendProtocolKey "HTTP" else m

theorem withDefaults_get {m : AnnotationMap} {k : String} (h₁ : k ≠ successCodesKey)
    (h₂ : k ≠ backendProtocolKey) : (withDefaults m).get k = m.get k := by
  dsimp only [withDefaults]
  split_ifs <;> simp only [AnnotationMap.get_set_ne _ _ (Ne.symm h₁),
    AnnotationMap.get_set_ne _ _ (Ne.symm h₂)]

/-- The return of every failing branch: the error, and for an error (not a panic) the mark
`"error"` in the negative cache. -/
def failed (cacheKey : String) (annotations : AnnotationMap) (e : Failure) (c : Cache) :
    ParseOutcome :=
  match e with
  | .error _ => ⟨none, some e, annotations, c.set cacheKey (.text "error")⟩
  | .panic _ => ⟨none, some e, annotations, c⟩

@[simp] theorem failed_resp (k : String) (m : AnnotationMap) (e : Failure) (c : Cache) :
    (failed k m e c).resp = none := by
  cases e <;> rfl

@[simp] theorem failed_err (k : String) (m : AnnotationMap) (e : Failure) (c : Cache) :
    (failed k m e c).err = some e := by
  cases e <;> rfl

@[simp] theorem failed_error_cache (k : String) (m : AnnotationMap) (msg : String) (c : Cache) :
    (failed k m (.error msg) c).cache = c.set k (.text "error") := rfl

def parseAnnotations (prettify : AnnotationMap → String) (inv : Ec2Inventory) (cache : Cache)
    (annotations : AnnotationMap) : ParseOutcome :=
  let cacheKey := annotationsCacheKey prettify annotations
  if (cache cacheKey).isSome then ⟨none, none, annotations, cache⟩
  else
    let annotations := withDefaults annotations
    let fail := failed cacheKey annotations
    if annotations.get subnetsKey = "" then
      fail (.error ("Necessary annotations missing. Must include " ++ subnetsKey)) cache
    else
      match parseSubnets inv cache (annotations.get subnetsKey) with
      | (.error e, cache) => fail e cache
      | (.ok subnets, cache) =>
        match parseSecurityGroups inv cache (annotations.get securityGroupsKey) with
        | (.error e, cache) => fail e cache
        | (.ok securitygroups, cache) =>
          match parseScheme (annotations.get schemeKey) with
          | .error e => fail (.error e) cache
          | .ok scheme =>
            ⟨some { backendProtocol := annotations.get backendProtocolKey
                    certificateArn := annotations.lookup certificateArnKey
                    healthcheckPath := parseHealthcheckPath (annotations.get healthcheckPathKey)
                    port := parsePort (annotations.get portKey)
                      (annotations.get certificateArnKey)
                    scheme := scheme
                    securityGroups := securitygroups
                    subnets := subnets
                    successCodes := annotations.get successCodesKey
                    tags := stringToTags (annotations.get tagsKey) },
              none, annotations, cache⟩

section Outcomes

variable (prettify : AnnotationMap → String) (inv : Ec2Inventory) (cache : Cache)
  (annotations : AnnotationMap)

/-- A hit on the negative cache returns `(nil, nil)` and changes nothing. -/
theorem parseAnnotations_of_cached (h : (cache (annotationsCacheKey prettify annotations)).isSome) :
    parseAnnotations prettify inv cache annotations = ⟨none, none, annotations, cache⟩ := by
  simp [parseAnnotations, h]

/-- Without a hit, a call returns a record or an error, never both and never neither. -/
theorem parseAnnotations_of_miss (h : cache (annotationsCacheKey prettify annotations) = none) :
    (parseAnnotations prettify inv cache annotations).resp.isSome =
      !(parseAnnotations prettify inv cache annotations).err.isSome := by
  simp only [parseAnnotations, h, Option.isSome_none, Bool.false_eq_true, if_false]
  split_ifs
  · simp
  · repeat' split
    all_goals simp

/-- Every error a call returns leaves the map's key in the negative cache. -/
theorem parseAnnotations_caches_error {e : String}
    (h : (parseAnnotations prettify inv cache annotations).err = some (.error e)) :
    (parseAnnotations prettify inv cache annotations).cache
      (annotationsCacheKey prettify annotations) = some (.text "error") := by
  revert h
  simp only [parseAnnotations]
  split_ifs
  · simp
  · simp
  · repeat' split
    all_goals simp only [failed_err, Option.some.injEq]
    all_goals first | simp | (rintro rfl; simp)

/-- Once a call has failed on a map, every later call on a map with the same sorted content
hits the negative cache and returns `(nil, nil)`. -/
theorem parseAnnotations_after_error {e : String} (annotations' : AnnotationMap)
    (hsame : sortedMap annotations' = sortedMap annotations)
    (h : (parseAnnotations prettify inv cache annotations).err = some (.error e)) :
    parseAnnotations prettify inv (parseAnnotations prettify inv cache annotations).cache
        annotations' =
      ⟨none, none, annotations', (parseAnnotations prettify inv cache annotations).cache⟩ := by
  apply parseAnnotations_of_cached
  rw [annotationsCacheKey, hsame, ← annotationsCacheKey,
    parseAnnotations_caches_error prettify inv cache annotations h]
  rfl

theorem parseAnnotations_after_error_port :
    parseAnnotations toString ⟨[], []⟩
        (parseAnnotations toString ⟨[], []⟩ Cache.empty [(portKey, "80")]).cache [(portKey, "80")] =
      ⟨none, none, [(portKey, "80")],
        (parseAnnotations toString ⟨[], []⟩ Cache.empty [(portKey, "80")]).cache⟩ :=
  parseAnnotations_after_error toString ⟨[], []⟩ Cache.empty [(portKey, "80")]
    (e := "Necessary annotations missing. Must include " ++ subnetsKey) [(portKey, "80")] rfl rfl

/-- Past the cache lookup, the error depends on the map only through its subnets, security
groups and scheme annotations. -/
theorem parseAnnotations_err_congr {m₁ m₂ : AnnotationMap}
    (h₁ : cache (annotationsCacheKey prettify m₁) = none)
    (h₂ : cache (annotationsCacheKey prettify m₂) = none)
    (hsubnets : (withDefaults m₁).get subnetsKey = (withDefaults m₂).get subnetsKey)
    (hgroups : (withDefaults m₁).get securityGroupsKey = (withDefaults m₂).get securityGroupsKey)
    (hscheme : (withDefaults m₁).get schemeKey = (withDefaults m₂).get schemeKey) :
    (parseAnnotations prettify inv cache m₁).err = (parseAnnotations prettify inv cache m₂).err := by
  simp only [parseAnnotations, h₁, h₂, Option.isSome_none, Bool.false_eq_true, if_false,
    hsubnets, hgroups, hscheme]
  split_ifs
  · simp
  rcases hs : parseSubnets inv cache ((withDefaults m₂).get subnetsKey) with ⟨_ | _, c₁⟩
  · simp [hs]
  rcases hg : parseSecurityGroups inv c₁ ((withDefaults m₂).get securityGroupsKey) with ⟨_ | _, c₂⟩
  · simp [hs, hg]
  rcases hsc : parseScheme ((withDefaults m₂).get schemeKey) with _ | _ <;> simp [hs, hg, hsc]

/-- A returned record carries the tags `stringToTags` decodes from the tags annotation. -/
theorem parseAnnotations_resp_tags {r : AnnotationsT}
    (h : (parseAnnotations prettify inv cache annotations).resp = some r) :
    r.tags = stringToTags (annotations.get tagsKey) := by
  rw [← withDefaults_get (by decide) (by decide)]
  revert h
  simp only [parseAnnotations]
  split_ifs
  · simp
  · simp
  rcases hs : parseSubnets inv cache ((withDefaults annotations).get subnetsKey) with ⟨_ | _, c₁⟩
  · simp [hs]
  rcases hg : parseSecurityGroups inv c₁ ((withDefaults annotations).get securityGroupsKey) with
    ⟨_ | _, c₂⟩
  · simp [hs, hg]
  rcases hsc : parseScheme ((withDefaults annotations).get schemeKey) with _ | _
  · simp [hs, hg, hsc]
  · simp only [hs, hg, hsc, Option.some.injEq]
    rintro rfl
    simp only

/-- The tags annotation never makes `parseAnnotations` fail. Two maps that differ only in
their tags annotation, on a cache where neither map's key hits, get the same error, and a
record returned carries the tags `stringToTags` decodes: a token without `=` is dropped, and
one with more than one `=` is cut at the second. -/
theorem parseAnnotations_error_ignores_tags (m : AnnotationMap) (s s' : String)
    (hs : cache (annotationsCacheKey prettify (m.set tagsKey s)) = none)
    (hs' : cache (annotationsCacheKey prettify (m.set tagsKey s')) = none) :
    (parseAnnotations prettify inv cache (m.set tagsKey s)).err =
        (parseAnnotations prettify inv cache (m.set tagsKey s')).err ∧
      ∀ r, (parseAnnotations prettify inv cache (m.set tagsKey s)).resp = some r →
        r.tags = stringToTags s := by
  have hget : ∀ k, tagsKey ≠ k → k ≠ successCodesKey → k ≠ backendProtocolKey →
      (withDefaults (m.set tagsKey s)).get k = (withDefaults (m.set tagsKey s')).get k :=
    fun k h h₁ h₂ => by
      rw [withDefaults_get h₁ h₂, withDefaults_get h₁ h₂, AnnotationMap.get_set_ne _ _ h,
        AnnotationMap.get_set_ne _ _ h]
  refine ⟨parseAnnotations_err_congr prettify inv cache hs hs'
    (hget _ (by decide) (by decide) (by decide)) (hget _ (by decide) (by decide) (by decide))
    (hget _ (by decide) (by decide) (by decide)), fun r hr => ?_⟩
  rw [parseAnnotations_resp_tags prettify inv cache _ hr, AnnotationMap.get_set_self]

theorem parseAnnotations_error_ignores_tags_web :
    let inv : Ec2Inventory := ⟨[⟨"subnet-a", []⟩], []⟩
    let m : AnnotationMap :=
      [(subnetsKey, "subnet-a"), (securityGroupsKey, "sg-1"), (schemeKey, "internal")]
    Cache.empty (annotationsCacheKey (fun _ => "") (m.set tagsKey "a=1,not-a-kv,b=c=d")) = none ∧
      Cache.empty (annotationsCacheKey (fun _ => "") (m.set tagsKey "")) = none ∧
      (parseAnnotations (fun _ => "") inv Cache.empty (m.set tagsKey "a=1,not-a-kv,b=c=d")).err =
          (parseAnnotations (fun _ => "") inv Cache.empty (m.set tagsKey "")).err ∧
        ∀ r, (parseAnnotations (fun _ => "") inv Cache.empty
            (m.set tagsKey "a=1,not-a-kv,b=c=d")).resp = some r →
          r.tags = stringToTags "a=1,not-a-kv,b=c=d" :=
  ⟨rfl, rfl, parseAnnotations_error_ignores_tags _ _ _ _ _ _ rfl rfl⟩

/-- The malformed tokens of the tags annotation: the call succeeds, `not-a-kv` is dropped,
and `b=c=d` becomes the tag `b=c`. -/
example :
    (parseAnnotations (fun _ => "") ⟨[⟨"subnet-a", []⟩], []⟩ Cache.empty
        [(subnetsKey, "subnet-a"), (securityGroupsKey, "sg-1"), (schemeKey, "internal"),
          (tagsKey, "a=1,not-a-kv,b=c=d")]).resp.map (·.tags) =
      some [⟨"a", "1"⟩, ⟨"b", "c"⟩] := by
  decide

end Outcomes

/-- The empty map, twice: the first call fails on the missing subnets annotation, the second
returns neither a record nor an error. -/
theorem parseAnnotations_second_call_returns_nil (prettify : AnnotationMap → String)
    (inv : Ec2Inventory) :
    (parseAnnotations prettify inv Cache.empty []).resp = none ∧
      (parseAnnotations prettify inv Cache.empty []).err =
        some (.error ("Necessary annotations missing. Must include " ++ subnetsKey)) ∧
      (parseAnnotations prettify inv (parseAnnotations prettify inv Cache.empty []).cache []).resp =
        none ∧
      (parseAnnotations prettify inv (parseAnnotations prettify inv Cache.empty []).cache []).err =
        none := by
  have hfirst : parseAnnotations prettify inv Cache.empty [] =
      failed (annotationsCacheKey prettify []) (withDefaults [])
        (.error ("Necessary annotations missing. Must include " ++ subnetsKey)) Cache.empty := by
    rfl
  rw [hfirst, parseAnnotations_of_cached _ _ _ _ (by simp)]
  simp

end AlbIngress.Controller
