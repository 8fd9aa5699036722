import AlbIngress.Controller.Annotations

/-!
The name resolvers `parseSubnets` and `parseSecurityGroups`. Each splits its annotation with
`stringToAwsSlice`, passes ID tokens through, answers the other tokens from the
process-wide `cache` when it can, and looks the rest up by their `Name` tag in one filtered
`Describe*` call, caching every `Name → ID` pair the call returns. `parseSubnets` also
checks its ID tokens against `DescribeSubnets`; `parseSecurityGroups` checks nothing.

The EC2 service is a fixed inventory: a `Describe*` call by ID fails exactly when an ID
names no resource, and a call by filter returns every resource that matches it. A filter
value may hold EC2's wildcards: `*` matches any run of characters, `?` at most one, and a
backslash makes the next character literal.
-/

namespace AlbIngress.Controller

open AlbIngress.Go

/-- A value of the process-wide `cache`: a `*string` stored by the resolvers, or the Go
string `"error"` that `parseAnnotations` stores. -/
inductive CacheValue
  | awsString (s : String)
  | text (s : String)
  deriving DecidableEq, Repr

/-- The process-wide `cache`, within the TTL of its entries. -/
abbrev Cache := String → Option CacheValue

def Cache.empty : Cache := fun _ => none

/-- `cache.Set(key, value, ttl)`. -/
def Cache.set (c : Cache) (k : String) (v : CacheValue) : Cache :=
  Function.update c k (some v)

@[simp] theorem Cache.empty_apply (k : String) : Cache.empty k = none := rfl

@[simp] theorem Cache.set_apply (c : Cache) (k k' : String) (v : CacheValue) :
    c.set k v k' = if k' = k then some v else c k' := by
  simp only [Cache.set, Function.update_apply]

/-- A subnet or a security group as `DescribeSubnets` or `DescribeSecurityGroups` returns it. -/
structure Ec2Resource where
  id : String
  tags : List (String × String)
  deriving DecidableEq, Repr

/-- `EC2Tags(tags).Get("Name")`. -/
def Ec2Resource.nameTag (r : Ec2Resource) : Option String :=
  r.tags.lookup "Name"

/-- The EC2 inventory that `ec2svc.svc` answers from. -/
structure Ec2Inventory where
  subnets : List Ec2Resource
  securityGroups : List Ec2Resource
  deriving DecidableEq, Repr

/-- How a call ends when it does not return a value: an `error`, or a panic. -/
inductive Failure
  | error (msg : String)
  | panic (msg : String)
  deriving DecidableEq, Repr

/-- `DescribeSubnets` with `SubnetIds`: rejected when one of the IDs names no subnet. -/
def describeSubnetsByIds (inv : Ec2Inventory) (ids : List String) : Except String Unit :=
  if ids.all fun i => inv.subnets.any (·.id == i) then .ok ()
  else .error "InvalidSubnetID.NotFound"

/-- EC2's match of a filter value against a tag value. -/
def filterValueMatches : List Char → List Char → Bool
  | [], v => v.isEmpty
  | '*' :: p, v => v.tails.any fun v' => filterValueMatches p v'
  | '?' :: p, v => filterValueMatches p v || match v with
    | [] => false
    | _ :: v' => filterValueMatches p v'
  | '\\' :: c :: p, v => match v with
    | c' :: v' => c == c' && filterValueMatches p v'
    | [] => false
  | c :: p, v => match v with
    | c' :: v' => c == c' && filterValueMatches p v'
    | [] => false

/-- The filter `tag:Name` with the value `n` selects the resource. -/
def Ec2Resource.nameMatches (r : Ec2Resource) (n : String) : Bool :=
  r.nameTag.any fun v => filterValueMatches n.toList v.toList

/-- A `Describe*` call with the filter `tag:Name` on the values `names`. -/
def describeByName (resources : List Ec2Resource) (names : List String) : List Ec2Resource :=
  resources.filter fun r => names.any r.nameMatches

/-- A name with none of the characters a filter value gives a meaning to. -/
def PlainName (n : String) : Prop :=
  ∀ c ∈ n.toList, c ≠ '*' ∧ c ≠ '?' ∧ c ≠ '\\'

instance (n : String) : Decidable (PlainName n) :=
  inferInstanceAs (Decidable (∀ c ∈ n.toList, _))

/-- The token loop of both resolvers: a token with the ID prefix, or with a cache entry,
goes to `out`; the others are the names left to look up. An entry that is not a `*string`
fails the type assertion `item.Value().(*string)`. -/
def scanTokens (idPrefix : String) (cache : Cache) :
    List String → Except String (List String × List String)
  | [] => .ok ([], [])
  | t :: ts =>
    if hasPrefix t idPrefix then (scanTokens idPrefix cache ts).map fun r => (t :: r.1, r.2)
    else match cache t with
      | some (.awsString v) => (scanTokens idPrefix cache ts).map fun r => (v :: r.1, r.2)
      | some (.text _) => .error "interface conversion: interface \x7b\x7d is string, not *string"
      | none => (scanTokens idPrefix cache ts).map fun r => (r.1, t :: r.2)

/-- The loop over the resources found by name: cache each under its Name tag, later ones
overwriting earlier ones, and collect its ID. -/
def cacheByName (cache : Cache) : List Ec2Resource → Cache × List String
  | [] => (cache, [])
  | r :: rs =>
    match r.nameTag with
    | some v =>
      let rest := cacheByName (cache.set v (.awsString r.id)) rs
      (rest.1, r.id :: rest.2)
    | none => cacheByName cache rs

/-- The end both resolvers share: look the names up by their Name tag, sort, and reject an
empty result. `kind` is the word of the error message. -/
def resolveNames (kind : String) (resources : List Ec2Resource) (cache : Cache) (s : String)
    (out names : List String) : Except Failure (List String) × Cache :=
  let found :=
    if names ≠ [] then cacheByName cache (describeByName resources names) else (cache, [])
  let out := sortStrings (out ++ found.2)
  if out = [] then (.error (.error ("unable to resolve any " ++ kind ++ " from: " ++ s)), found.1)
  else (.ok out, found.1)

/-- `ALBController.parseSubnets`, with the cache it leaves. -/
def parseSubnets (inv : Ec2Inventory) (cache : Cache) (s : String) :
    Except Failure (List String) × Cache :=
  match scanTokens "subnet-" cache (stringToAwsSlice s) with
  | .error e => (.error (.panic e), cache)
  | .ok (out, names) =>
    match (if out ≠ [] then describeSubnetsByIds inv out else .ok ()) with
    | .error e => (.error (.error e), cache)
    | .ok () => resolveNames "subnets" inv.subnets cache s out names

/-- `parseSecurityGroups`, with the cache it leaves: the same as `parseSubnets` without the
check of the ID tokens. -/
def parseSecurityGroups (inv : Ec2Inventory) (cache : Cache) (s : String) :
    Except Failure (List String) × Cache :=
  match scanTokens "sg-" cache (stringToAwsSlice s) with
  | .error e => (.error (.panic e), cache)
  | .ok (out, names) => resolveNames "security groups" inv.securityGroups cache s out names

/-! ### Spec lemmas -/

/-- The result `resolveNames` reports for the ID list `ids` it has gathered. -/
def resolvedResult (kind s : String) (ids : List String) : Except Failure (List String) :=
  if ids = [] then .error (.error ("unable to resolve any " ++ kind ++ " from: " ++ s))
  else .ok (sortStrings ids)

/-- The `out ≠ []` guard around the ID check changes nothing: an empty list passes. -/
theorem describeSubnetsByIds_guard (inv : Ec2Inventory) (out : List String) :
    (if out ≠ [] then describeSubnetsByIds inv out else .ok ()) =
      describeSubnetsByIds inv out := by
  split
  · rfl
  · simp_all [describeSubnetsByIds]

theorem describeSubnetsByIds_eq (inv : Ec2Inventory) (ids : List String) :
    describeSubnetsByIds inv ids =
      if ∀ i ∈ ids, ∃ r ∈ inv.subnets, r.id = i then .ok ()
      else .error "InvalidSubnetID.NotFound" := by
  simp [describeSubnetsByIds]

/-- Without wildcards a filter value matches the tag value equal to it, and only it. -/
theorem filterValueMatches_plain :
    ∀ {p : List Char}, (∀ c ∈ p, c ≠ '*' ∧ c ≠ '?' ∧ c ≠ '\\') →
      ∀ v, filterValueMatches p v = true ↔ p = v
  | [], _, v => by cases v <;> simp [filterValueMatches]
  | c :: p, h, v => by
    obtain ⟨h₁, h₂, h₃⟩ := h c (.head _)
    have ih := filterValueMatches_plain (p := p) fun c hc => h c (.tail _ hc)
    cases v with
    | nil => simp [filterValueMatches, h₁, h₂, h₃]
    | cons c' v => simp [filterValueMatches, h₁, h₂, h₃, ih]

theorem nameMatches_of_plain {n : String} (hn : PlainName n) (r : Ec2Resource) :
    r.nameMatches n = true ↔ r.nameTag = some n := by
  cases h : r.nameTag with
  | none => simp [Ec2Resource.nameMatches, h]
  | some v =>
    simp only [Ec2Resource.nameMatches, h, Option.any_some, filterValueMatches_plain hn,
      Option.some.injEq]
    exact ⟨fun e => (String.ext e).symm, fun e => congrArg String.toList e.symm⟩

theorem nameTag_isSome_of_nameMatches {r : Ec2Resource} {n : String} (h : r.nameMatches n = true) :
    r.nameTag.isSome := by
  cases hr : r.nameTag <;> simp_all [Ec2Resource.nameMatches]

@[simp] theorem describeByName_nil (rs : List Ec2Resource) : describeByName rs [] = [] := by
  simp [describeByName]

theorem mem_describeByName {rs : List Ec2Resource} {names : List String} {r : Ec2Resource} :
    r ∈ describeByName rs names ↔ r ∈ rs ∧ ∃ n ∈ names, r.nameMatches n = true := by
  simp [describeByName]

/-- The loop collects the ID of every resource that has a Name tag. -/
theorem cacheByName_ids (c : Cache) {rs : List Ec2Resource}
    (h : ∀ r ∈ rs, r.nameTag.isSome) : (cacheByName c rs).2 = rs.map (·.id) := by
  induction rs generalizing c with
  | nil => rfl
  | cons r rs ih =>
    obtain ⟨v, hv⟩ := Option.isSome_iff_exists.mp (h r (.head _))
    simp [cacheByName, hv, ih _ fun r' hr' => h r' (.tail _ hr')]

/-- Every resource found by `Name` has a Name tag, so `resolveNames` reports the ID tokens and
the IDs of the resources found, whether or not there were names to look up. -/
theorem resolveNames_eq (kind : String) (rs : List Ec2Resource) (c : Cache) (s : String)
    (out names : List String) :
    resolveNames kind rs c s out names =
      (resolvedResult kind s (out ++ (describeByName rs names).map (·.id)),
        (cacheByName c (describeByName rs names)).1) := by
  have hids : (cacheByName c (describeByName rs names)).2 = (describeByName rs names).map (·.id) :=
    cacheByName_ids c fun r hr =>
      let ⟨_, _, _, hn⟩ := mem_describeByName.mp hr
      nameTag_isSome_of_nameMatches hn
  have hfound : (if names ≠ [] then cacheByName c (describeByName rs names) else (c, [])) =
      cacheByName c (describeByName rs names) := by
    split
    · rfl
    · simp_all [cacheByName]
  simp only [resolveNames, resolvedResult, hfound, hids, sortStrings_eq_nil]
  split_ifs <;> rfl

/-- With an empty cache the token loop splits the tokens by their prefix. -/
theorem scanTokens_empty (p : String) (toks : List String) :
    scanTokens p Cache.empty toks =
      .ok (toks.filter (hasPrefix · p), toks.filter fun t => !hasPrefix t p) := by
  induction toks with
  | nil => rfl
  | cons t ts ih =>
    by_cases h : hasPrefix t p <;> simp [scanTokens, ih, h, List.filter_cons, Except.map]

/-! ### Resolution from an empty cache -/

/-- The IDs a resolver gathers for `s` from an empty cache: its ID tokens, then the IDs of
every resource whose Name tag is one of its other tokens. -/
def freshIds (idPrefix : String) (resources : List Ec2Resource) (s : String) : List String :=
  (stringToAwsSlice s).filter (hasPrefix · idPrefix) ++
    (describeByName resources ((stringToAwsSlice s).filter fun t => !hasPrefix t idPrefix)).map
      (·.id)

/-- From an empty cache, `parseSubnets` fails when an ID token names no subnet or nothing
resolves, and otherwise returns its ID tokens and the IDs of the subnets whose Name tag one
of its other tokens matches, sorted: a name that matches nothing is dropped and a repeated
ID is kept. `parseSecurityGroups` does the same without looking its ID tokens up. -/
theorem resolvers_on_empty_cache (inv : Ec2Inventory) (s : String) :
    (parseSubnets inv Cache.empty s).1 =
        (if ∀ t ∈ (stringToAwsSlice s).filter (hasPrefix · "subnet-"),
            ∃ r ∈ inv.subnets, r.id = t
          then resolvedResult "subnets" s (freshIds "subnet-" inv.subnets s)
          else .error (.error "InvalidSubnetID.NotFound")) ∧
      (parseSecurityGroups inv Cache.empty s).1 =
        resolvedResult "security groups" s (freshIds "sg-" inv.securityGroups s) := by
  constructor
  · simp only [parseSubnets, scanTokens_empty, describeSubnetsByIds_guard]
    rw [describeSubnetsByIds_eq]
    split_ifs <;> simp [resolveNames_eq, freshIds]
  · simp [parseSecurityGroups, scanTokens_empty, resolveNames_eq, freshIds]

theorem resolvers_on_empty_cache_nosuch :
    (∀ r ∈ [(⟨"subnet-a", []⟩ : Ec2Resource)], r.nameTag = none) ∧
      (∀ g ∈ [(⟨"sg-1", []⟩ : Ec2Resource)], g.id ≠ "sg-nosuch") ∧
      (parseSubnets ⟨[⟨"subnet-a", []⟩], [⟨"sg-1", []⟩]⟩ Cache.empty "subnet-a,nosuch").1 =
        .ok ["subnet-a"] ∧
      (parseSubnets ⟨[⟨"subnet-a", []⟩], [⟨"sg-1", []⟩]⟩ Cache.empty "subnet-a,subnet-a").1 =
        .ok ["subnet-a", "subnet-a"] ∧
      (parseSecurityGroups ⟨[⟨"subnet-a", []⟩], [⟨"sg-1", []⟩]⟩ Cache.empty "sg-nosuch").1 =
        .ok ["sg-nosuch"] :=
  ⟨by decide, by decide,
    (resolvers_on_empty_cache ⟨[⟨"subnet-a", []⟩], [⟨"sg-1", []⟩]⟩ "subnet-a,nosuch").1.trans rfl,
    (resolvers_on_empty_cache ⟨[⟨"subnet-a", []⟩], [⟨"sg-1", []⟩]⟩ "subnet-a,subnet-a").1.trans rfl,
    (resolvers_on_empty_cache ⟨[⟨"subnet-a", []⟩], [⟨"sg-1", []⟩]⟩ "sg-nosuch").2.trans rfl⟩

end AlbIngress.Controller
