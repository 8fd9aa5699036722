import AlbIngress.Go.Tokens

/-!
Package `awsutil`, Route 53. `getDomain` takes a hostname's domain to be its last two
labels, after one trailing dot is trimmed. `GetZoneID` finds the hosted zone of that domain:
from the process-wide `Cache` under `r53zone <domain>`, or else from
`ListHostedZonesByName`, whose first zone named as the domain, up to its trailing dot, it
caches. `Cache.Get` returns an item whatever its age, and `GetZoneID` does not ask, so a
cached zone is returned until the cache drops it. `LookupExistingRecord` then lists the
zone's record sets from the hostname on and returns the first.

The Route 53 calls are parameters: `list` is `ListHostedZonesByName` and `listRecords` is
`ListResourceRecordSets` with `MaxItems` one; each may answer differently from one call to
the next. The cache is the map from key to the zone stored under it.
-/

namespace AlbIngress.Awsutil

open AlbIngress.Go

/-! ### `getDomain` -/

/-- `Route53.getDomain`: the last two labels of the hostname, without one trailing dot,
lowercased. -/
def getDomain (hostname : String) : Except String String :=
  let hostname := trimSuffix hostname "."
  let domainParts := split hostname '.'
  if domainParts.length < 2 then .error (hostname ++ " hostname does not contain a domain")
  else .ok (toLower (join (domainParts.drop (domainParts.length - 2)) "."))

/-- A hostname whose trimmed form has the dot-free labels `ls ++ [a, b]` has the domain
`a.b`, lowercased. -/
theorem getDomain_of_labels {hostname : String} {ls : List String} {a b : String}
    (htrim : trimSuffix hostname "." = join (ls ++ [a, b]) ".")
    (hdot : ∀ l ∈ ls ++ [a, b], '.' ∉ l.toList) :
    getDomain hostname = .ok (toLower a ++ "." ++ toLower b) := by
  have hsplit : split (trimSuffix hostname ".") '.' = ls ++ [a, b] := by
    rw [htrim, show "." = ⟨['.']⟩ from rfl]
    exact split_join_char (by simp) hdot
  have hlen : (ls ++ [a, b]).length = ls.length + 2 := by simp
  simp only [getDomain, hsplit, hlen, Nat.add_sub_cancel, List.drop_left, join_pair,
    toLower_append, toLower_dot]
  rw [if_neg (by omega)]

/-- Labels joined by dots, the last one not empty, end with no dot. -/
theorem trimSuffix_join_labels {ls : List String} {a b : String}
    (hdot : '.' ∉ b.toList) (hb : b ≠ "") :
    trimSuffix (join (ls ++ [a, b]) ".") "." = join (ls ++ [a, b]) "." := by
  obtain ⟨e, es, hes⟩ := List.exists_cons_of_ne_nil (List.append_ne_nil_of_right_ne_nil ls
    (List.cons_ne_nil a []))
  have hjoin : ls ++ [a, b] = e :: (es ++ [b]) := by rw [← List.cons_append, ← hes]; simp
  have hne : b.toList ≠ [] := fun h => hb (String.ext h)
  rw [show "." = ⟨['.']⟩ from rfl]
  refine trimSuffix_of_getLast? fun hlast => hdot (List.mem_of_getLast?_eq_some ?_)
  rwa [hjoin, toList_join_append_singleton, List.getLast?_append_of_ne_nil _ hne] at hlast

/-- `getDomain` fails exactly when the hostname, trimmed of one trailing dot, has no dot,
and its error names the trimmed hostname. -/
theorem getDomain_error_iff (hostname : String) :
    ((∃ e, getDomain hostname = .error e) ↔ '.' ∉ (trimSuffix hostname ".").toList) ∧
      ∀ e, getDomain hostname = .error e →
        e = trimSuffix hostname "." ++ " hostname does not contain a domain" := by
  have hlen : (split (trimSuffix hostname ".") '.').length < 2 ↔
      '.' ∉ (trimSuffix hostname ".").toList := by
    rw [length_split, ← List.count_eq_zero]
    omega
  unfold getDomain
  dsimp only
  split_ifs with h
  · exact ⟨⟨fun _ => hlen.mp h, fun _ => ⟨_, rfl⟩⟩, fun e he => (Except.error.inj he).symm⟩
  · exact ⟨⟨fun ⟨_, he⟩ => (nomatch he), fun hc => absurd (hlen.mpr hc) h⟩, fun _ he => nomatch he⟩

/-- `getDomain` returns the last two labels of a hostname, lowercased, whatever labels come
before them, with or without one trailing dot. -/
theorem getDomain_join (ls : List String) (a b : String)
    (hdot : ∀ l ∈ ls ++ [a, b], '.' ∉ l.toList) (hb : b ≠ "") :
    getDomain (join (ls ++ [a, b]) ".") = .ok (toLower a ++ "." ++ toLower b) ∧
      getDomain (join (ls ++ [a, b]) "." ++ ".") = .ok (toLower a ++ "." ++ toLower b) :=
  ⟨getDomain_of_labels (trimSuffix_join_labels (hdot b (by simp)) hb) hdot,
    getDomain_of_labels (trimSuffix_append _ _) hdot⟩

theorem getDomain_join_web :
    (∀ l ∈ ["foo", "Example"] ++ ["CO", "uk"], '.' ∉ l.toList) ∧ "uk" ≠ "" ∧
      getDomain "foo.Example.CO.uk" = .ok "co.uk" ∧ getDomain "foo.Example.CO.uk." = .ok "co.uk" :=
  ⟨by decide, by decide, getDomain_join ["foo", "Example"] "CO" "uk" (by decide) (by decide)⟩

/-! ### `GetZoneID` -/

/-- A `route53.HostedZone`, with the fields read here. -/
structure HostedZone where
  id : String
  name : String
  deriving DecidableEq, Repr

/-- An error of `ListHostedZonesByName`: an `awserr.Error` with its code, or another error
with its text. -/
inductive ListError
  | awsErr (code : String)
  | other (text : String)
  deriving DecidableEq, Repr

/-- `Cache` as `GetZoneID` reads and writes it. -/
abbrev ZoneCache := String → Option HostedZone

/-- The cache key of a domain's zone. -/
def zoneKey (zone : String) : String := "r53zone " ++ zone

theorem zoneKey_injective : Function.Injective zoneKey := fun _ _ h =>
  String.ext (List.append_cancel_left (congrArg String.toList h))

/-- What `GetZoneID` does on a cache miss: the first zone `ListHostedZonesByName` returns
whose name, without its trailing dot, is the domain. -/
def lookupZone (list : String → Except ListError (List HostedZone)) (zone : String) :
    Except String HostedZone :=
  match list zone with
  | .error (.awsErr code) => .error ("Error calling route53.ListHostedZonesByName: " ++ code)
  | .error (.other text) => .error ("Error calling route53.ListHostedZonesByName: " ++ text)
  | .ok [] => .error "Zone not found"
  | .ok zones =>
    match zones.find? (fun i => zone == trimSuffix i.name ".") with
    | some i => .ok i
    | none => .error ("Unable to find the zone: " ++ zone)

/-- `Route53.GetZoneID`. A nil hostname is printed by `%s` as `%!s(*string=<nil>)`. -/
def getZoneID (list : String → Except ListError (List HostedZone)) (cache : ZoneCache)
    (hostname : Option String) : Except String HostedZone × ZoneCache :=
  match hostname with
  | none => (.error "Requested zoneID %!s(*string=<nil>) is invalid.", cache)
  | some hostname =>
    match getDomain hostname with
    | .error e => (.error e, cache)
    | .ok zone =>
      match cache (zoneKey zone) with
      | some item => (.ok item, cache)
      | none =>
        match lookupZone list zone with
        | .ok i => (.ok i, Function.update cache (zoneKey zone) (some i))
        | .error e => (.error e, cache)

/-- The zone of a hostname without any cache: its domain, then the lookup. -/
def zoneOf (list : String → Except ListError (List HostedZone)) :
    Option String → Except String HostedZone
  | none => .error "Requested zoneID %!s(*string=<nil>) is invalid."
  | some hostname => (getDomain hostname).bind (lookupZone list)

/-- A zone the lookup returns is named as the domain, up to its trailing dot. -/
theorem lookupZone_named {list : String → Except ListError (List HostedZone)} {zone : String}
    {i : HostedZone} (h : lookupZone list zone = .ok i) : trimSuffix i.name "." = zone := by
  unfold lookupZone at h
  split at h <;> try cases h
  split at h
  · next j hj =>
    cases h
    have hname := List.find?_some hj
    rw [beq_iff_eq] at hname
    exact hname.symm
  · cases h

/-- What one `GetZoneID` can do: leave the cache as it is and return the zone it holds
for the domain, or an error; or miss, find the zone by the lookup, and cache it. -/
theorem getZoneID_cases (list : String → Except ListError (List HostedZone)) (cache : ZoneCache)
    (hostname : Option String) :
    ((getZoneID list cache hostname).2 = cache ∧
      ∀ i, (getZoneID list cache hostname).1 = .ok i →
        ∃ h zone, hostname = some h ∧ getDomain h = .ok zone ∧ cache (zoneKey zone) = some i) ∨
      ∃ h zone i, hostname = some h ∧ getDomain h = .ok zone ∧ cache (zoneKey zone) = none ∧
        lookupZone list zone = .ok i ∧
        getZoneID list cache hostname = (.ok i, Function.update cache (zoneKey zone) (some i)) := by
  unfold getZoneID
  split
  · exact .inl ⟨rfl, fun _ h => nomatch h⟩
  · next h =>
    split
    · exact .inl ⟨rfl, fun _ h => nomatch h⟩
    · next zone hzone =>
      split
      · next item hitem =>
        exact .inl ⟨rfl, fun i hi =>
          ⟨h, zone, rfl, hzone, hitem.trans (congrArg some (Except.ok.inj hi))⟩⟩
      · next hmiss =>
        split
        · next i hi => exact .inr ⟨h, zone, i, rfl, hzone, hmiss, hi, rfl⟩
        · exact .inl ⟨rfl, fun _ h => nomatch h⟩

/-- `Function.update` of the cache at a domain's key reads the other domains' keys as before. -/
theorem update_zoneKey_ne (cache : ZoneCache) {zone zone' : String} (i : Option HostedZone)
    (h : zone' ≠ zone) : Function.update cache (zoneKey zone) i (zoneKey zone') = cache (zoneKey zone') :=
  Function.update_noteq (zoneKey_injective.ne h) _ _

/-- A property of every cached zone, with its domain, holds after a zone that has it is
stored under its domain's key. -/
theorem forall_update_zoneKey {P : String → HostedZone → Prop} {cache : ZoneCache}
    (h : ∀ zone i, cache (zoneKey zone) = some i → P zone i) {zone : String} {i : HostedZone}
    (hi : P zone i) :
    ∀ zone' j, Function.update cache (zoneKey zone) (some i) (zoneKey zone') = some j → P zone' j := by
  intro zone' j hj
  by_cases hzone : zone' = zone
  · subst hzone
    rw [Function.update_same, Option.some_inj] at hj
    exact hj ▸ hi
  · rw [update_zoneKey_ne cache _ hzone] at hj
    exact h zone' j hj

/-! ### The cache over a run of calls -/

/-- Every zone the cache holds under a domain's key is named as the domain, up to its
trailing dot. -/
def ZonesNamed (cache : ZoneCache) : Prop :=
  ∀ zone i, cache (zoneKey zone) = some i → trimSuffix i.name "." = zone

/-- While `ListHostedZonesByName` answers as `list` does, every cached zone is the one the
lookup returns. -/
def Consistent (list : String → Except ListError (List HostedZone)) (cache : ZoneCache) : Prop :=
  ∀ zone i, cache (zoneKey zone) = some i → lookupZone list zone = .ok i

theorem zonesNamed_empty : ZonesNamed fun _ => none := fun _ _ h => by cases h

theorem consistent_empty (list : String → Except ListError (List HostedZone)) :
    Consistent list fun _ => none := fun _ _ h => by cases h

section Cache

variable {list : String → Except ListError (List HostedZone)} {cache : ZoneCache}
  {hostname : Option String}

/-- One `GetZoneID` keeps the cached zones named, and returns only a zone named as the
hostname's domain. -/
theorem ZonesNamed.after_getZoneID (h : ZonesNamed cache) :
    ZonesNamed (getZoneID list cache hostname).2 ∧
      ∀ i, (getZoneID list cache hostname).1 = .ok i →
        ∃ host, hostname = some host ∧ getDomain host = .ok (trimSuffix i.name ".") := by
  rcases getZoneID_cases list cache hostname with ⟨hc, hres⟩ | ⟨host, zone, i, rfl, hz, -, hi, he⟩
  · refine ⟨by rw [hc]; exact h, fun i hi => ?_⟩
    obtain ⟨host, zone, rfl, hz, hci⟩ := hres i hi
    exact ⟨host, rfl, by rw [hz, h zone i hci]⟩
  · rw [he]
    exact ⟨forall_update_zoneKey (P := fun zone i => trimSuffix i.name "." = zone) h
      (lookupZone_named hi), fun j hj => ⟨host, rfl, by
        rw [hz, ← Except.ok.inj hj, lookupZone_named hi]⟩⟩

/-- One `GetZoneID` against the same service keeps the cache consistent with it, and returns
what the lookup without a cache returns. -/
theorem Consistent.after_getZoneID (h : Consistent list cache) :
    Consistent list (getZoneID list cache hostname).2 ∧
      (getZoneID list cache hostname).1 = zoneOf list hostname := by
  refine ⟨?_, ?_⟩
  · rcases getZoneID_cases list cache hostname with ⟨hc, -⟩ | ⟨host, zone, i, -, -, -, hi, he⟩
    · rw [hc]; exact h
    · rw [he]
      exact forall_update_zoneKey (P := fun zone i => lookupZone list zone = .ok i) h hi
  · unfold getZoneID zoneOf
    split
    · rfl
    · next host =>
      cases hz : getDomain host with
      | error e => rfl
      | ok zone =>
        simp only [Except.bind]
        cases hc : cache (zoneKey zone) with
        | some i => exact (h zone i hc).symm
        | none => cases lookupZone list zone <;> rfl

end Cache

/-- A run of `GetZoneID` calls, each against what Route 53 answers at its time. -/
def getZoneIDs (cache : ZoneCache) :
    List ((String → Except ListError (List HostedZone)) × Option String) → ZoneCache
  | [] => cache
  | (list, hostname) :: calls => getZoneIDs (getZoneID list cache hostname).2 calls

theorem ZonesNamed.after_getZoneIDs {cache : ZoneCache} (h : ZonesNamed cache)
    (calls : List ((String → Except ListError (List HostedZone)) × Option String)) :
    ZonesNamed (getZoneIDs cache calls) := by
  induction calls generalizing cache with
  | nil => exact h
  | cons call calls ih => exact ih h.after_getZoneID.1

theorem Consistent.after_getZoneIDs {list : String → Except ListError (List HostedZone)}
    {cache : ZoneCache} (h : Consistent list cache) (calls : List (Option String)) :
    Consistent list (getZoneIDs cache (calls.map (list, ·))) := by
  induction calls generalizing cache with
  | nil => exact h
  | cons call calls ih => exact ih h.after_getZoneID.1

/-- Over every run of `GetZoneID` calls from the empty cache, whatever Route 53 answers each
time, the cache holds under each domain's key only a zone named as the domain, so every zone
a later call returns, from the cache or from the service, is named as its hostname's domain
up to the trailing dot. A call that fails leaves the cache as it was. -/
theorem getZoneID_returns_domain_zone
    (calls : List ((String → Except ListError (List HostedZone)) × Option String))
    (list : String → Except ListError (List HostedZone)) (hostname : Option String) :
    ZonesNamed (getZoneIDs (fun _ => none) calls) ∧
      (∀ i, (getZoneID list (getZoneIDs (fun _ => none) calls) hostname).1 = .ok i →
        ∃ host, hostname = some host ∧ getDomain host = .ok (trimSuffix i.name ".")) ∧
      ∀ e, (getZoneID list (getZoneIDs (fun _ => none) calls) hostname).1 = .error e →
        (getZoneID list (getZoneIDs (fun _ => none) calls) hostname).2 =
          getZoneIDs (fun _ => none) calls := by
  have hnamed := ZonesNamed.after_getZoneIDs zonesNamed_empty calls
  refine ⟨hnamed, hnamed.after_getZoneID.2, fun e he => ?_⟩
  rcases getZoneID_cases list (getZoneIDs (fun _ => none) calls) hostname with ⟨hc, -⟩ |
    ⟨_, _, _, _, _, _, _, hres⟩
  · exact hc
  · rw [hres] at he
    cases he

/-- While Route 53 answers the same, `GetZoneID` through the cache returns what the lookup
without a cache returns. Once a domain's zone is cached, every later `GetZoneID` for a
hostname of that domain returns it and leaves the cache as it is, whatever Route 53 answers
then, even when it no longer lists the zone. -/
theorem getZoneID_cache_transparent (list : String → Except ListError (List HostedZone))
    (calls : List (Option String)) (hostname : Option String) :
    (getZoneID list (getZoneIDs (fun _ => none) (calls.map (list, ·))) hostname).1 =
        zoneOf list hostname ∧
      ∀ (cache : ZoneCache) (host zone : String) (i : HostedZone),
        getDomain host = .ok zone → cache (zoneKey zone) = some i →
        ∀ list', getZoneID list' cache (some host) = (.ok i, cache) :=
  ⟨(Consistent.after_getZoneIDs (consistent_empty list) calls).after_getZoneID.2,
    fun cache host zone i hz hc list' => by simp only [getZoneID, hz, hc]⟩

/-! ### `LookupExistingRecord` -/

end AlbIngress.Awsutil
