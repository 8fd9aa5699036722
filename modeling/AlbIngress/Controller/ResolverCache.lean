import AlbIngress.Controller.Resolvers
import Mathlib.Data.Finset.Basic

/-!
What the process-wide name cache does to the resolvers. Both resolvers store a resource
under its bare Name tag in the one cache, so subnets and security groups share the keys. A
cache hit stands for the one `Name → ID` pair an earlier lookup of either kind stored, while
a lookup by filter returns every resource of the resolver's own kind whose name matches.

The cache is invisible, up to the order and repetition that the final sort and the
per-token loop introduce, when a Name tag names one resource of the resolver's kind, no
Name tag holds a wildcard, and no token of the annotation is the name of a resource of the
other kind (`shared_cache_transparent`). Without the last condition a name that a subnet
carries, once `parseSubnets` has cached it, answers `parseSecurityGroups` with the subnet's
ID (`parseSecurityGroups_after_parseSubnets`).
-/

namespace AlbIngress.Controller

open AlbIngress.Go

/-- A resolver call of the process, with its annotation string. -/
inductive ResolverCall
  | subnets (s : String)
  | securityGroups (s : String)
  deriving DecidableEq, Repr

/-- The cache a resolver call leaves. -/
def ResolverCall.run (inv : Ec2Inventory) (c : Cache) : ResolverCall → Cache
  | .subnets s => (parseSubnets inv c s).2
  | .securityGroups s => (parseSecurityGroups inv c s).2

/-- The cache left by a sequence of resolver calls of both kinds, from an empty cache. -/
def resolverHistory (inv : Ec2Inventory) (calls : List ResolverCall) : Cache :=
  calls.foldl (ResolverCall.run inv) Cache.empty

/-- The subnets and the security groups. -/
def Ec2Inventory.resources (inv : Ec2Inventory) : List Ec2Resource :=
  inv.subnets ++ inv.securityGroups

/-- Every entry of the cache is a `*string` stored under the Name tag of a resource of `rs`,
and holds that resource's ID. -/
def NamedEntries (rs : List Ec2Resource) (c : Cache) : Prop :=
  ∀ t v, c t = some v → ∃ r ∈ rs, r.nameTag = some t ∧ v = .awsString r.id

/-- A Name tag names one ID. -/
def NameTagsUnique (rs : List Ec2Resource) : Prop :=
  ∀ r ∈ rs, ∀ r' ∈ rs, r.nameTag.isSome → r.nameTag = r'.nameTag → r.id = r'.id

instance (rs : List Ec2Resource) : Decidable (NameTagsUnique rs) :=
  inferInstanceAs (Decidable (∀ r ∈ rs, ∀ r' ∈ rs, _))

/-- No Name tag holds a wildcard or an escape. -/
def PlainNames (rs : List Ec2Resource) : Prop :=
  ∀ r ∈ rs, ∀ n ∈ r.nameTag, PlainName n

instance (rs : List Ec2Resource) : Decidable (PlainNames rs) :=
  inferInstanceAs (Decidable (∀ r ∈ rs, ∀ n ∈ r.nameTag, _))

/-! ### The entries of the cache -/

theorem namedEntries_empty (rs : List Ec2Resource) : NamedEntries rs Cache.empty := by
  intro t v h
  cases h

theorem namedEntries_cacheByName {rs found : List Ec2Resource} {c : Cache}
    (hc : NamedEntries rs c) (hfound : ∀ r ∈ found, r ∈ rs) :
    NamedEntries rs (cacheByName c found).1 := by
  induction found generalizing c with
  | nil => exact hc
  | cons r found ih =>
    have hrest := fun r' hr' => hfound r' (.tail _ hr')
    cases hr : r.nameTag with
    | none => simpa [cacheByName, hr] using ih hc hrest
    | some n =>
      simp only [cacheByName, hr]
      refine ih (fun t v hv => ?_) hrest
      rw [Cache.set_apply] at hv
      split_ifs at hv with ht
      · exact ⟨r, hfound r (.head _), ht ▸ hr, (Option.some.inj hv).symm⟩
      · exact hc t v hv

/-- The name loop only stores resources found by a filter on `rs`. -/
theorem namedEntries_resolveNames {all rs : List Ec2Resource} {c : Cache}
    (hc : NamedEntries all c) (hsub : ∀ r ∈ rs, r ∈ all) (kind s : String)
    (out names : List String) : NamedEntries all (resolveNames kind rs c s out names).2 := by
  rw [resolveNames_eq]
  exact namedEntries_cacheByName hc fun r hr => hsub r (mem_describeByName.mp hr).1

theorem namedEntries_run {inv : Ec2Inventory} {c : Cache} (hc : NamedEntries inv.resources c) :
    ∀ call : ResolverCall, NamedEntries inv.resources (call.run inv c)
  | .subnets s => by
    show NamedEntries _ (parseSubnets inv c s).2
    unfold parseSubnets
    split
    · exact hc
    · split
      · exact hc
      · exact namedEntries_resolveNames hc (fun _ => List.mem_append_left _) _ _ _ _
  | .securityGroups s => by
    show NamedEntries _ (parseSecurityGroups inv c s).2
    unfold parseSecurityGroups
    split
    · exact hc
    · exact namedEntries_resolveNames hc (fun _ => List.mem_append_right _) _ _ _ _

theorem namedEntries_resolverHistory (inv : Ec2Inventory) (calls : List ResolverCall) :
    NamedEntries inv.resources (resolverHistory inv calls) := by
  suffices ∀ c, NamedEntries inv.resources c →
      NamedEntries inv.resources (calls.foldl (ResolverCall.run inv) c) from
    this _ (namedEntries_empty _)
  induction calls with
  | nil => exact fun _ hc => hc
  | cons call calls ih => exact fun c hc => ih _ (namedEntries_run hc call)

/-- The loop leaves the entry of a name that no resource it passes carries. -/
theorem cacheByName_apply_of_unnamed (c : Cache) {rs : List Ec2Resource} {k : String}
    (h : ∀ r ∈ rs, r.nameTag ≠ some k) : (cacheByName c rs).1 k = c k := by
  induction rs generalizing c with
  | nil => rfl
  | cons r rs ih =>
    have hrest := fun r' hr' => h r' (.tail _ hr')
    cases hr : r.nameTag with
    | none => simpa [cacheByName, hr] using ih c hrest
    | some v =>
      have hv : v ≠ k := fun e => h r (.head _) (hr.trans (congrArg some e))
      simp [cacheByName, hr, ih _ hrest, Ne.symm hv]

/-- Once the loop has passed a resource named `k`, the entry of `k` holds the ID of the last
one. -/
theorem cacheByName_apply_of_named (c : Cache) {rs : List Ec2Resource} {k : String}
    (h : ∃ r ∈ rs, r.nameTag = some k) :
    ∃ r ∈ rs, r.nameTag = some k ∧ (cacheByName c rs).1 k = some (.awsString r.id) := by
  induction rs generalizing c with
  | nil => simp at h
  | cons r rs ih =>
    by_cases hlater : ∃ r' ∈ rs, r'.nameTag = some k
    · have hstep : ∃ c', (cacheByName c (r :: rs)).1 = (cacheByName c' rs).1 := by
        cases hr : r.nameTag <;> simp only [cacheByName, hr] <;> exact ⟨_, rfl⟩
      obtain ⟨c', hc'⟩ := hstep
      obtain ⟨r', hr', hr'k, hcache⟩ := ih c' hlater
      exact ⟨r', .tail _ hr', hr'k, hc' ▸ hcache⟩
    · push_neg at hlater
      have hrk : r.nameTag = some k := by
        obtain ⟨r', hr', hr'k⟩ := h
        rcases List.mem_cons.mp hr' with rfl | hr'
        exacts [hr'k, absurd hr'k (hlater r' hr')]
      refine ⟨r, .head _, hrk, ?_⟩
      simp [cacheByName, hrk, cacheByName_apply_of_unnamed _ hlater]

/-! ### The token loop on a cache of names -/

/-- What the token loop sends to `out` for one token: the token itself if it has the ID
prefix, otherwise the ID cached under it, if any. -/
def scanOut (p : String) (c : Cache) (t : String) : Option String :=
  if hasPrefix t p then some t
  else match c t with
    | some (.awsString v) => some v
    | _ => none

/-- The tokens the loop leaves for the lookup by name. -/
def scanMisses (p : String) (c : Cache) (toks : List String) : List String :=
  toks.filter fun t => !hasPrefix t p && (c t).isNone

/-- A token the loop resolves is an ID it names, or a cached name of a resource with that
ID. -/
theorem scanOut_eq_some {rs : List Ec2Resource} {c : Cache} (hc : NamedEntries rs c)
    {p t i : String} (h : scanOut p c t = some i) :
    (hasPrefix t p = true ∧ i = t) ∨
      (hasPrefix t p = false ∧ ∃ r ∈ rs, r.nameTag = some t ∧ r.id = i) := by
  unfold scanOut at h
  by_cases hp : hasPrefix t p
  · simp only [hp, if_true, Option.some.injEq] at h
    exact .inl ⟨hp, h.symm⟩
  · rcases hct : c t with _ | v
    · simp [hp, hct] at h
    · obtain ⟨r, hr, hrt, rfl⟩ := hc t v hct
      simp only [hp, hct, Bool.false_eq_true, if_false, Option.some.injEq] at h
      exact .inr ⟨by simpa using hp, r, hr, hrt, h⟩

theorem scanTokens_named {rs : List Ec2Resource} {c : Cache} (hc : NamedEntries rs c)
    (p : String) (toks : List String) :
    scanTokens p c toks = .ok (toks.filterMap (scanOut p c), scanMisses p c toks) := by
  induction toks with
  | nil => rfl
  | cons t ts ih =>
    by_cases hp : hasPrefix t p
    · simp [scanTokens, scanOut, scanMisses, hp, ih, Except.map]
    · rcases hct : c t with _ | v
      · simp_all [scanTokens, scanOut, scanMisses, Except.map]
      · obtain ⟨r, -, -, rfl⟩ := hc t v hct
        simp_all [scanTokens, scanOut, scanMisses, Except.map]

/-- On a cache of names, a resolver gathers the same IDs as from an empty cache, when every
token the cache can answer is a plain name of a resource of the resolver's kind `rs`: a
cached name then stands for the one resource of `rs` that carries it. -/
theorem mem_gathered_iff {all rs : List Ec2Resource} {c : Cache} (hc : NamedEntries all c)
    (hu : NameTagsUnique rs) (p : String) (toks : List String)
    (hhit : ∀ t ∈ toks, hasPrefix t p = false → ∀ r ∈ all, r.nameTag = some t →
      r ∈ rs ∧ PlainName t) (x : String) :
    x ∈ toks.filterMap (scanOut p c) ++ (describeByName rs (scanMisses p c toks)).map (·.id) ↔
      x ∈ toks.filter (hasPrefix · p) ++
        (describeByName rs (toks.filter fun t => !hasPrefix t p)).map (·.id) := by
  simp only [List.mem_append, List.mem_filterMap, List.mem_map, mem_describeByName,
    List.mem_filter, scanMisses]
  constructor
  · rintro (⟨t, ht, hx⟩ | ⟨r, ⟨hr, n, hn, hrn⟩, rfl⟩)
    · rcases scanOut_eq_some hc hx with ⟨hp, rfl⟩ | ⟨hp, r, hr, hrt, rfl⟩
      · exact .inl ⟨ht, hp⟩
      · obtain ⟨hr, hplain⟩ := hhit t ht hp r hr hrt
        exact .inr ⟨r, ⟨hr, t, ⟨ht, by simpa using hp⟩, (nameMatches_of_plain hplain r).mpr hrt⟩,
          rfl⟩
    · simp only [Bool.and_eq_true, Bool.not_eq_true'] at hn
      exact .inr ⟨r, ⟨hr, n, ⟨hn.1, by simpa using hn.2.1⟩, hrn⟩, rfl⟩
  · rintro (⟨ht, hp⟩ | ⟨r, ⟨hr, n, ⟨hn, hp⟩, hrn⟩, rfl⟩)
    · exact .inl ⟨x, ht, by simp [scanOut, hp]⟩
    · simp only [Bool.not_eq_true'] at hp
      rcases hcn : c n with _ | v
      · exact .inr ⟨r, ⟨hr, n, ⟨hn, by simp [hp, hcn]⟩, hrn⟩, rfl⟩
      · obtain ⟨r', hr', hr'n, rfl⟩ := hc n v hcn
        obtain ⟨hr'', hplain⟩ := hhit n hn hp r' hr' hr'n
        have hrn' := (nameMatches_of_plain hplain r).mp hrn
        refine .inl ⟨n, hn, ?_⟩
        simp [scanOut, hp, hcn, hu r hr r' hr'' (by simp [hrn']) (hrn'.trans hr'n.symm)]

/-! ### Transparency -/

/-- Two ID lists with the same members give the same result up to order and repetition. -/
theorem resolvedResult_congr {l₁ l₂ : List String} (h : ∀ x, x ∈ l₁ ↔ x ∈ l₂)
    (kind s : String) :
    (resolvedResult kind s l₁).map List.toFinset = (resolvedResult kind s l₂).map List.toFinset := by
  have hnil : l₁ = [] ↔ l₂ = [] := by simp only [List.eq_nil_iff_forall_not_mem, h]
  unfold resolvedResult
  by_cases h₁ : l₁ = []
  · simp [h₁, hnil.mp h₁]
  · have h₂ : l₂ ≠ [] := fun h₂ => h₁ (hnil.mpr h₂)
    simp only [h₁, h₂, if_false, Except.map, Except.ok.injEq]
    ext x
    simp [h]

/-- A resource that carries a token's name, when no resource of the other kind `other` does,
is of the resolver's kind `rs`. -/
theorem hit_of_cross {inv : Ec2Inventory} (hplain : PlainNames inv.resources)
    {rs other : List Ec2Resource} (hkinds : ∀ r ∈ inv.resources, r ∈ rs ∨ r ∈ other)
    {toks : List String} (hcross : ∀ t ∈ toks, ∀ r ∈ other, r.nameTag ≠ some t) (p : String) :
    ∀ t ∈ toks, hasPrefix t p = false → ∀ r ∈ inv.resources, r.nameTag = some t →
      r ∈ rs ∧ PlainName t :=
  fun t ht _ r hr hrt =>
    ⟨(hkinds r hr).resolve_right fun ho => hcross t ht r ho hrt, hplain r hr t hrt⟩

section Transparency

variable {inv : Ec2Inventory} {c : Cache} (hc : NamedEntries inv.resources c)
  (hplain : PlainNames inv.resources) {s : String}
include hc hplain

theorem parseSubnets_named (hu : NameTagsUnique inv.subnets)
    (hcross : ∀ t ∈ stringToAwsSlice s, ∀ r ∈ inv.securityGroups, r.nameTag ≠ some t) :
    (parseSubnets inv c s).1.map List.toFinset =
      (parseSubnets inv Cache.empty s).1.map List.toFinset := by
  have hhit := hit_of_cross hplain (fun r hr => List.mem_append.mp hr) hcross "subnet-"
  simp only [parseSubnets, scanTokens_named hc, scanTokens_empty, describeSubnetsByIds_guard]
  rw [describeSubnetsByIds_eq, describeSubnetsByIds_eq]
  have hcheck : (∀ i ∈ (stringToAwsSlice s).filterMap (scanOut "subnet-" c),
        ∃ r ∈ inv.subnets, r.id = i) ↔
      ∀ i ∈ (stringToAwsSlice s).filter (hasPrefix · "subnet-"), ∃ r ∈ inv.subnets, r.id = i := by
    constructor
    · intro h i hi
      exact h i (List.mem_filterMap.mpr ⟨i, (List.mem_filter.mp hi).1,
        by simp [scanOut, (List.mem_filter.mp hi).2]⟩)
    · intro h i hi
      obtain ⟨t, ht, hti⟩ := List.mem_filterMap.mp hi
      rcases scanOut_eq_some hc hti with ⟨hp, rfl⟩ | ⟨hp, r, hr, hrt, rfl⟩
      · exact h i (List.mem_filter.mpr ⟨ht, hp⟩)
      · exact ⟨r, (hhit t ht hp r hr hrt).1, rfl⟩
  split_ifs with h₁ h₂ h₂
  · simp only [resolveNames_eq]
    exact resolvedResult_congr (mem_gathered_iff hc hu _ _ hhit) _ _
  · exact absurd (hcheck.mp h₁) h₂
  · exact absurd (hcheck.mpr h₂) h₁
  · rfl

theorem parseSecurityGroups_named (hu : NameTagsUnique inv.securityGroups)
    (hcross : ∀ t ∈ stringToAwsSlice s, ∀ r ∈ inv.subnets, r.nameTag ≠ some t) :
    (parseSecurityGroups inv c s).1.map List.toFinset =
      (parseSecurityGroups inv Cache.empty s).1.map List.toFinset := by
  have hhit := hit_of_cross hplain (fun r hr => (List.mem_append.mp hr).symm) hcross "sg-"
  simp only [parseSecurityGroups, scanTokens_named hc, scanTokens_empty, resolveNames_eq]
  exact resolvedResult_congr (mem_gathered_iff hc hu _ _ hhit) _ _

end Transparency

/-- Over any history of resolver calls of both kinds on the shared cache: when a Name tag
names one resource of the resolver's kind, no Name tag holds a wildcard, and no token of the
annotation is the name of a resource of the other kind, the cache changes neither the
resolver's errors nor the set of IDs it returns. -/
theorem shared_cache_transparent (inv : Ec2Inventory) (calls : List ResolverCall) (s : String)
    (hplain : PlainNames inv.resources) :
    (NameTagsUnique inv.subnets →
      (∀ t ∈ stringToAwsSlice s, ∀ r ∈ inv.securityGroups, r.nameTag ≠ some t) →
      (parseSubnets inv (resolverHistory inv calls) s).1.map List.toFinset =
        (parseSubnets inv Cache.empty s).1.map List.toFinset) ∧
    (NameTagsUnique inv.securityGroups →
      (∀ t ∈ stringToAwsSlice s, ∀ r ∈ inv.subnets, r.nameTag ≠ some t) →
      (parseSecurityGroups inv (resolverHistory inv calls) s).1.map List.toFinset =
        (parseSecurityGroups inv Cache.empty s).1.map List.toFinset) :=
  ⟨parseSubnets_named (namedEntries_resolverHistory inv calls) hplain,
    parseSecurityGroups_named (namedEntries_resolverHistory inv calls) hplain⟩

/-- A subnet named `web` and a security group named `db`, each resolved once: resolving
`web,web` as subnets again gives the same IDs as with no cache. -/
theorem shared_cache_transparent_web :
    let inv : Ec2Inventory := ⟨[⟨"subnet-a", [("Name", "web")]⟩], [⟨"sg-1", [("Name", "db")]⟩]⟩
    PlainNames inv.resources ∧ NameTagsUnique inv.subnets ∧
      (∀ t ∈ stringToAwsSlice "web,web", ∀ r ∈ inv.securityGroups, r.nameTag ≠ some t) ∧
      (parseSubnets inv (resolverHistory inv [.subnets "web", .securityGroups "db"]) "web,web").1.map
          List.toFinset =
        (parseSubnets inv Cache.empty "web,web").1.map List.toFinset := by
  intro inv
  have hplain : PlainNames inv.resources := by decide
  have hu : NameTagsUnique inv.subnets := by decide
  have hcross : ∀ t ∈ stringToAwsSlice "web,web", ∀ r ∈ inv.securityGroups, r.nameTag ≠ some t := by
    decide
  exact ⟨hplain, hu, hcross,
    (shared_cache_transparent inv [.subnets "web", .securityGroups "db"] "web,web" hplain).1 hu hcross⟩

/-! ### A name of the other kind -/

/-- A plain name that a subnet carries, resolved as subnets and then as security groups on
the cache the first call leaves, as `parseAnnotations` does with its two annotations: the
security-group lookup answers with the subnet's ID, which a lookup of security groups on an
empty cache never returns when no security group has a subnet's ID. -/
theorem parseSecurityGroups_after_parseSubnets (inv : Ec2Inventory) (c : Cache) (n : String)
    (htok : stringToAwsSlice n = [n]) (hsubnet : hasPrefix n "subnet-" = false)
    (hsg : hasPrefix n "sg-" = false) (hplain : PlainName n) (hmiss : c n = none)
    (hnamed : ∃ r ∈ inv.subnets, r.nameTag = some n)
    (hids : ∀ g ∈ inv.securityGroups, ∀ r ∈ inv.subnets, g.id ≠ r.id) :
    ∃ r ∈ inv.subnets, r.nameTag = some n ∧
      (parseSecurityGroups inv (parseSubnets inv c n).2 n).1 = .ok [r.id] ∧
      ∀ ids, (parseSecurityGroups inv Cache.empty n).1 = .ok ids → r.id ∉ ids := by
  -- the subnet lookup misses the cache and caches the last subnet the filter finds
  have hfirst : (parseSubnets inv c n).2 = (cacheByName c (describeByName inv.subnets [n])).1 := by
    simp [parseSubnets, htok, scanTokens, hsubnet, hmiss, Except.map, resolveNames_eq]
  obtain ⟨r₀, hr₀, hr₀n⟩ := hnamed
  obtain ⟨r, hr, hrn, hcache⟩ := cacheByName_apply_of_named c (k := n)
    ⟨r₀, mem_describeByName.mpr ⟨hr₀, n, List.mem_singleton_self n,
      (nameMatches_of_plain hplain r₀).mpr hr₀n⟩, hr₀n⟩
  have hsubnets := (mem_describeByName.mp hr).1
  refine ⟨r, hsubnets, hrn, ?_, fun ids hres hmem => ?_⟩
  · simp [hfirst, parseSecurityGroups, htok, scanTokens, hsg, hcache, Except.map, resolveNames_eq,
      resolvedResult]
  · rw [(resolvers_on_empty_cache inv n).2, resolvedResult] at hres
    split_ifs at hres
    cases hres
    simp only [mem_sortStrings, freshIds, htok, List.filter_singleton, hsg, cond_false,
      List.nil_append, Bool.not_false, cond_true, List.mem_map] at hmem
    obtain ⟨g, hg, hgr⟩ := hmem
    exact hids g (mem_describeByName.mp hg).1 r hsubnets hgr

/-- A subnet and a security group both named `web`: after the subnet lookup, the
security-group lookup returns the subnet's ID; on an empty cache it returns the group's. -/
theorem parseSecurityGroups_after_parseSubnets_web :
    let inv : Ec2Inventory := ⟨[⟨"subnet-a", [("Name", "web")]⟩], [⟨"sg-1", [("Name", "web")]⟩]⟩
    (parseSecurityGroups inv (parseSubnets inv Cache.empty "web").2 "web").1 = .ok ["subnet-a"] ∧
      (parseSecurityGroups inv Cache.empty "web").1 = .ok ["sg-1"] ∧
      ∃ r ∈ inv.subnets, r.nameTag = some "web" ∧
        (parseSecurityGroups inv (parseSubnets inv Cache.empty "web").2 "web").1 = .ok [r.id] ∧
        ∀ ids, (parseSecurityGroups inv Cache.empty "web").1 = .ok ids → r.id ∉ ids := by
  intro inv
  exact ⟨rfl, rfl, parseSecurityGroups_after_parseSubnets inv Cache.empty "web" rfl rfl rfl
    (by decide) rfl ⟨_, .head _, rfl⟩ (by decide)⟩

end AlbIngress.Controller
