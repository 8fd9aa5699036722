import AlbIngress.Go.Strings

/-!
The annotation helpers of package `controller`: the annotation keys, the decoded record
`annotationsT`, and the pure decoders `stringToAwsSlice`, `stringToTags`, `parsePort`,
`parseHealthcheckPath` and `parseScheme`.

An annotation map is a Go `map[string]string`, written as an association list: the index
expression `annotations[k]` is `AnnotationMap.get`, which yields `""` for a missing key, and
the assignment `annotations[k] = v` is `AnnotationMap.set`, which keeps the keys distinct.
-/

namespace AlbIngress.Controller

open AlbIngress.Go

def backendProtocolKey : String := "alb.ingress.kubernetes.io/backend-protocol"
def certificateArnKey : String := "alb.ingress.kubernetes.io/certificate-arn"
def healthcheckPathKey : String := "alb.ingress.kubernetes.io/healthcheck-path"
def portKey : String := "alb.ingress.kubernetes.io/port"
def schemeKey : String := "alb.ingress.kubernetes.io/scheme"
def securityGroupsKey : String := "alb.ingress.kubernetes.io/security-groups"
def subnetsKey : String := "alb.ingress.kubernetes.io/subnets"
def successCodesKey : String := "alb.ingress.kubernetes.io/successCodes"
def tagsKey : String := "alb.ingress.kubernetes.io/tags"

/-- A Go `map[string]string` as an association list. -/
abbrev AnnotationMap := List (String × String)

/-- `annotations[k]` as an expression: the zero value `""` when `k` is missing. -/
def AnnotationMap.get (m : AnnotationMap) (k : String) : String :=
  (m.lookup k).getD ""

/-- `annotations[k] = v`: overwrite the binding of `k`, or add one. -/
def AnnotationMap.set : AnnotationMap → String → String → AnnotationMap
  | [], k, v => [(k, v)]
  | (k', v') :: m, k, v => if k' = k then (k, v) :: m else (k', v') :: AnnotationMap.set m k v

theorem lookup_cons_of_ne {k k' v : String} {m : AnnotationMap} (h : k' ≠ k) :
    ((k, v) :: m).lookup k' = m.lookup k' := by
  rw [List.lookup_cons, beq_false_of_ne h]

@[simp] theorem AnnotationMap.get_set_self (m : AnnotationMap) (k v : String) :
    (m.set k v).get k = v := by
  induction m with
  | nil => simp [AnnotationMap.set, AnnotationMap.get]
  | cons p m ih =>
    obtain ⟨k₀, v₀⟩ := p
    by_cases hk : k₀ = k
    · simp [AnnotationMap.set, AnnotationMap.get, hk]
    · simpa [AnnotationMap.set, AnnotationMap.get, hk, lookup_cons_of_ne (Ne.symm hk)] using ih

theorem AnnotationMap.get_set_ne (m : AnnotationMap) {k k' : String} (v : String)
    (h : k ≠ k') : (m.set k v).get k' = m.get k' := by
  induction m with
  | nil => simp [AnnotationMap.set, AnnotationMap.get, lookup_cons_of_ne (Ne.symm h)]
  | cons p m ih =>
    obtain ⟨k₀, v₀⟩ := p
    by_cases hk : k₀ = k
    · subst hk
      simp [AnnotationMap.set, AnnotationMap.get, lookup_cons_of_ne (Ne.symm h)]
    · by_cases hk' : k' = k₀
      · subst hk'
        simp [AnnotationMap.set, AnnotationMap.get, hk]
      · simpa [AnnotationMap.set, AnnotationMap.get, hk, lookup_cons_of_ne hk'] using ih

/-- An `elbv2.Tag`. -/
structure Tag where
  key : String
  value : String
  deriving DecidableEq, Repr

/-- `annotationsT`, with `*string` fields that the parser always fills as plain strings. -/
structure AnnotationsT where
  backendProtocol : String
  certificateArn : Option String
  healthcheckPath : String
  port : List Int
  scheme : String
  securityGroups : List String
  subnets : List String
  successCodes : String
  tags : List Tag
  deriving DecidableEq, Repr

/-- Comma-separated list: trim each token and drop the empty ones. -/
def stringToAwsSlice (s : String) : List String :=
  ((split s ',').map trimSpace).filter (· ≠ "")

/-- `Key=Value` tokens; a token without `=` is logged and skipped, and only the first two
`=`-separated parts of a token are kept. -/
def stringToTags (s : String) : List Tag :=
  (stringToAwsSlice s).filterMap fun rawTag =>
    if rawTag = "" then none
    else match split rawTag '=' with
      | k :: v :: _ => some ⟨k, v⟩
      | _ => none

/-- The listen ports. The port list is split on `,` without trimming, and each token goes
through `ParseInt` with its error dropped. -/
def parsePort (port certArn : String) : List Int :=
  if port = "" ∧ certArn = "" then [80]
  else if port = "" ∧ certArn ≠ "" then [443]
  else (split port ',').map parseInt

def parseHealthcheckPath (s : String) : String :=
  if s = "" then "/" else s

def parseScheme (s : String) : Except String String :=
  if s = "" then .error ("Necessary annotations missing. Must include " ++ schemeKey)
  else if s ≠ "internal" ∧ s ≠ "internet-facing" then
    .error ("ALB scheme [" ++ s ++ "] must be either `internal` or `internet-facing`")
  else .ok s

end AlbIngress.Controller
