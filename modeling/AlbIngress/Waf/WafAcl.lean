import AlbIngress.Ingresses.AlbIngresses

/-!
Package `wafacl`. A `WafAcl` record holds an ingress's load balancer ARN, the web ACL
associated with it (`CurrentWafAclId`) and the one the ingress's annotation asks for
(`DesiredWafAclId`). `Reconcile` disassociates, associates or replaces the ACL so that the
two agree, through the WAF Regional calls `Associate` and `Disassociate`, and on success
records the new current ACL. Without a load balancer ARN neither call is made, and
`Reconcile` reports success all the same. Every case of the switch that acts first logs
`*w.IngressID`, so a record without an ingress ID panics there, before any call.

The cloud is the web ACL WAF has for each load balancer ARN, with the log of calls. A call
that succeeds, or takes effect and then fails because its reply is lost, leaves the load
balancer with the ACL (`Associate`, in place of any it had) or with none (`Disassociate`);
a call rejected before it takes effect changes nothing. The record learns of a call only
from its reply: it never reads WAF back.

`plannedCall` says what `Reconcile` is for: the one call, if any, that takes the load
balancer from the current ACL to the desired one. `reconcile_eq_spec` shows that the code
makes exactly that call; the invariant that the record tracks WAF, convergence and
idempotence follow from it, over runs in which no reply is lost. A lost reply leaves the
record stale, and no later `Reconcile` notices (`syncs_after_lost_disassociate`).
-/

namespace AlbIngress.Waf

open AlbIngress.Ingresses (Panic deref deref_some)

/-- `WafAcl`. -/
structure WafAcl where
  ingressID : Option String
  loadBalancerArn : Option String
  currentWafAclId : Option String
  desiredWafAclId : Option String
  deriving DecidableEq, Repr

/-- The field of `config.Annotations` that `NewWafAcl` reads. -/
structure Annotations where
  wafAclId : Option String
  deriving DecidableEq, Repr

/-- The field of `elbv2.LoadBalancer` that `NewWafAcl` reads. -/
structure LoadBalancer where
  loadBalancerArn : Option String
  deriving DecidableEq, Repr

/-- `NewWafAcl`: the desired ACL of the annotations, the ARN of the load balancer when there
is one, and no current ACL. -/
def newWafAcl (annotations : Annotations) (loadBalancer : Option LoadBalancer)
    (ingressID : Option String) : WafAcl :=
  { ingressID := ingressID
    loadBalancerArn := match loadBalancer with
      | some lb => lb.loadBalancerArn
      | none => none
    currentWafAclId := none
    desiredWafAclId := annotations.wafAclId }

/-! ### The cloud -/

/-- A call of `awsutil.WAFRegionalsvc`. -/
inductive Call
  | associate (resourceArn webACLId : String)
  | disassociate (resourceArn : String)
  deriving DecidableEq, Repr

/-- The load balancer a call acts on. -/
def Call.resourceArn : Call → String
  | .associate arn _ => arn
  | .disassociate arn => arn

/-- The web ACL a call leaves on its load balancer when it succeeds. -/
def Call.webACLId : Call → Option String
  | .associate _ acl => some acl
  | .disassociate _ => none

/-- How a WAF Regional call goes: it succeeds; it is rejected before it takes effect; or it
takes effect and its reply is lost (a timeout once the SDK's retries are spent), so the
caller gets an error all the same. -/
inductive CallOutcome
  | succeeds
  | rejected
  | replyLost
  deriving DecidableEq, Repr

/-- How each WAF Regional call of a run goes. -/
structure Faults where
  associate : CallOutcome
  disassociate : CallOutcome
  deriving DecidableEq, Repr

/-- A run in which every call succeeds. -/
def Faults.none : Faults := ⟨.succeeds, .succeeds⟩

def Call.outcome (fs : Faults) : Call → CallOutcome
  | .associate _ _ => fs.associate
  | .disassociate _ => fs.disassociate

/-- No call of the run takes effect and then reports an error. -/
def Faults.Reported (fs : Faults) : Prop :=
  fs.associate ≠ .replyLost ∧ fs.disassociate ≠ .replyLost

instance (fs : Faults) : Decidable fs.Reported := inferInstanceAs (Decidable (_ ∧ _))

theorem Faults.Reported.outcome {fs : Faults} (h : fs.Reported) (c : Call) :
    c.outcome fs ≠ .replyLost := by
  cases c
  exacts [h.1, h.2]

/-- What `Reconcile` runs against: the web ACL WAF has for each load balancer ARN, and the
calls made so far. -/
structure Cloud where
  webACLFor : String → Option String
  calls : List Call

/-- A call of WAF Regional: logged when made; unless it is rejected it leaves its load
balancer with the call's ACL, and unless it succeeds it returns an error. -/
def perform (fs : Faults) (c : Call) (cl : Cloud) : Except String Unit × Cloud :=
  let cl := { cl with calls := cl.calls ++ [c] }
  let applied := { cl with webACLFor := Function.update cl.webACLFor c.resourceArn c.webACLId }
  match c.outcome fs with
  | .succeeds => (.ok (), applied)
  | .rejected => (.error "RequestError", cl)
  | .replyLost => (.error "RequestError", applied)

@[simp] theorem perform_calls (fs : Faults) (c : Call) (cl : Cloud) :
    (perform fs c cl).2.calls = cl.calls ++ [c] := by
  unfold perform
  split <;> rfl

/-! ### The record's calls -/

/-- `associate` and `disassociate`: nothing without a load balancer ARN; otherwise the WAF
call on the ARN, and on success the record's current ACL becomes the one the call leaves. -/
def mutate (fs : Faults) (call : String → Call) (w : WafAcl) (cl : Cloud) :
    Except String Unit × WafAcl × Cloud :=
  match w.loadBalancerArn with
  | none => (.ok (), w, cl)
  | some arn =>
    match perform fs (call arn) cl with
    | (.error e, cl) => (.error e, w, cl)
    | (.ok (), cl) => (.ok (), { w with currentWafAclId := (call arn).webACLId }, cl)

/-- `associate`, with the ACL `DesiredWafAclId` points to, which `Reconcile` has found set. Its
error log dereferences `IngressID`, which `Reconcile` has already dereferenced. -/
def associate (fs : Faults) (acl : String) (w : WafAcl) (cl : Cloud) :
    Except String Unit × WafAcl × Cloud :=
  mutate fs (fun arn => .associate arn acl) w cl

/-- `disassociate`. -/
def disassociate (fs : Faults) (w : WafAcl) (cl : Cloud) : Except String Unit × WafAcl × Cloud :=
  mutate fs .disassociate w cl

/-- `Reconcile`; its argument `lb` is unused. The switch's cases in order: no desired ACL
(disassociate, unless none is current), no current ACL (associate), and both (associate
when they differ). Each case that gets past `break` logs `*w.IngressID` first. -/
def reconcile (fs : Faults) (w : WafAcl) (cl : Cloud) :
    Except Panic (Except String Unit × WafAcl × Cloud) :=
  match w.desiredWafAclId, w.currentWafAclId with
  | none, none => pure (.ok (), w, cl)
  | none, some _ => do
    let _ ← deref w.ingressID
    pure (disassociate fs w cl)
  | some desired, none => do
    let _ ← deref w.ingressID
    pure (associate fs desired w cl)
  | some desired, some current => do
    let _ ← deref w.ingressID
    if current ≠ desired then pure (associate fs desired w cl) else pure (.ok (), w, cl)

/-! ### What `Reconcile` is for -/

/-- The call that takes the load balancer from the current ACL to the desired one: none
without a load balancer or when the two agree. -/
def plannedCall (w : WafAcl) : Option Call :=
  match w.loadBalancerArn with
  | none => none
  | some arn =>
    if w.currentWafAclId = w.desiredWafAclId then none
    else some (match w.desiredWafAclId with
      | none => .disassociate arn
      | some acl => .associate arn acl)

/-- Make the planned call, if any, and on success record the ACL it leaves. -/
def reconcileSpec (fs : Faults) (w : WafAcl) (cl : Cloud) : Except String Unit × WafAcl × Cloud :=
  match plannedCall w with
  | none => (.ok (), w, cl)
  | some c =>
    match perform fs c cl with
    | (.error e, cl) => (.error e, w, cl)
    | (.ok (), cl) => (.ok (), { w with currentWafAclId := c.webACLId }, cl)

/-- A planned call acts on the record's load balancer, leaves the desired ACL, and is made
only when the current ACL differs from it. -/
theorem plannedCall_eq_some {w : WafAcl} {c : Call} (h : plannedCall w = some c) :
    w.loadBalancerArn = some c.resourceArn ∧ c.webACLId = w.desiredWafAclId ∧
      w.currentWafAclId ≠ w.desiredWafAclId := by
  unfold plannedCall at h
  split at h
  · cases h
  · next arn harn =>
    split_ifs at h with hcur
    cases h
    refine ⟨?_, ?_, hcur⟩ <;> cases w.desiredWafAclId <;> simp [harn, Call.resourceArn, Call.webACLId]

theorem plannedCall_eq_none {w : WafAcl} :
    plannedCall w = none ↔ w.loadBalancerArn = none ∨ w.currentWafAclId = w.desiredWafAclId := by
  unfold plannedCall
  split
  · simp [*]
  · split_ifs <;> simp [*]

/-- `mutate` is the planned call when that call is the one `mutate` makes. -/
theorem mutate_eq_spec {fs : Faults} {call : String → Call} {w : WafAcl} {cl : Cloud}
    (h : ∀ arn, w.loadBalancerArn = some arn → plannedCall w = some (call arn)) :
    mutate fs call w cl = reconcileSpec fs w cl := by
  unfold mutate reconcileSpec
  split
  · next harn => rw [plannedCall_eq_none.mpr (.inl harn)]
  · next arn harn => rw [h arn harn]

/-- With an ingress ID, `Reconcile` makes exactly the planned call. -/
theorem reconcile_eq_spec (fs : Faults) {w : WafAcl} (cl : Cloud) {id : String}
    (hid : w.ingressID = some id) : reconcile fs w cl = pure (reconcileSpec fs w cl) := by
  have hnone : plannedCall w = none → pure (.ok (), w, cl) =
      (pure (reconcileSpec fs w cl) : Except Panic _) := fun h => by rw [reconcileSpec, h]
  unfold reconcile
  split
  · next hd hc => exact hnone (plannedCall_eq_none.mpr (.inr (hc.trans hd.symm)))
  · next cur hd hc =>
    simp only [hid, deref_some, pure_bind, disassociate]
    rw [mutate_eq_spec]
    intro arn harn
    simp [plannedCall, harn, hd, hc]
  · next d hd hc =>
    simp only [hid, deref_some, pure_bind, associate]
    rw [mutate_eq_spec]
    intro arn harn
    simp [plannedCall, harn, hd, hc]
  · next d cur hd hc =>
    simp only [hid, deref_some, pure_bind, associate]
    split_ifs with hne
    · rw [mutate_eq_spec]
      intro arn harn
      simp [plannedCall, harn, hd, hc, hne]
    · exact hnone (plannedCall_eq_none.mpr (.inr (by rw [hd, hc, not_not.mp hne])))

/-- Without an ingress ID, `Reconcile` panics unless there is no ACL either way. -/
theorem reconcile_of_ingressID_none (fs : Faults) {w : WafAcl} (cl : Cloud)
    (hid : w.ingressID = none) :
    reconcile fs w cl = if w.desiredWafAclId = none ∧ w.currentWafAclId = none
      then pure (.ok (), w, cl) else .error .nilPointerDereference := by
  unfold reconcile
  split <;> simp [*]

/-- `Reconcile` returns only what `reconcileSpec` returns: without an ingress ID it returns
only when there is no ACL either way, and then there is no call to make. -/
theorem reconcile_ok {fs : Faults} {w : WafAcl} {cl : Cloud} {x : Except String Unit × WafAcl × Cloud}
    (h : reconcile fs w cl = .ok x) : x = reconcileSpec fs w cl := by
  cases hid : w.ingressID with
  | some id => exact (Except.ok.inj ((reconcile_eq_spec fs cl hid).symm.trans h)).symm
  | none =>
    rw [reconcile_of_ingressID_none fs cl hid] at h
    split_ifs at h with hnone
    cases h
    rw [reconcileSpec, plannedCall_eq_none.mpr (.inr (hnone.2.trans hnone.1.symm))]

/-! ### One step -/

/-- The record's current ACL is the one WAF has for its load balancer. -/
def Tracks (w : WafAcl) (cl : Cloud) : Prop :=
  ∀ arn ∈ w.loadBalancerArn, cl.webACLFor arn = w.currentWafAclId

instance (w : WafAcl) (cl : Cloud) : Decidable (Tracks w cl) :=
  inferInstanceAs (Decidable (∀ arn ∈ w.loadBalancerArn, _))

/-- What `reconcileSpec` can do: nothing without a planned call. With one, the call is
logged, and it is rejected and changes nothing else; or it takes effect on the load balancer
and its reply is lost, so the record is left as it was; or it succeeds and the record takes
the ACL the call leaves. -/
theorem reconcileSpec_cases (fs : Faults) (w : WafAcl) (cl : Cloud) :
    (plannedCall w = none ∧ reconcileSpec fs w cl = (.ok (), w, cl)) ∨
      (∃ c, plannedCall w = some c ∧ c.outcome fs = .rejected ∧
        reconcileSpec fs w cl = (.error "RequestError", w, { cl with calls := cl.calls ++ [c] })) ∨
      (∃ c, plannedCall w = some c ∧ c.outcome fs = .replyLost ∧
        reconcileSpec fs w cl = (.error "RequestError", w,
          ⟨Function.update cl.webACLFor c.resourceArn c.webACLId, cl.calls ++ [c]⟩)) ∨
      ∃ c, plannedCall w = some c ∧ c.outcome fs = .succeeds ∧
        reconcileSpec fs w cl = (.ok (), { w with currentWafAclId := c.webACLId },
          ⟨Function.update cl.webACLFor c.resourceArn c.webACLId, cl.calls ++ [c]⟩) := by
  cases hp : plannedCall w with
  | none => exact .inl ⟨rfl, by rw [reconcileSpec, hp]⟩
  | some c =>
    have hspec : reconcileSpec fs w cl = match perform fs c cl with
        | (.error e, cl) => (.error e, w, cl)
        | (.ok (), cl) => (.ok (), { w with currentWafAclId := c.webACLId }, cl) := by
      rw [reconcileSpec, hp]
    cases hf : c.outcome fs <;> simp only [hspec, perform, hf]
    · exact .inr (.inr (.inr ⟨c, rfl, hf, rfl⟩))
    · exact .inr (.inl ⟨c, rfl, hf, rfl⟩)
    · exact .inr (.inr (.inl ⟨c, rfl, hf, rfl⟩))

section Step

variable {fs : Faults} {w : WafAcl} {cl : Cloud}

/-- The step changes only the record's current ACL. -/
theorem reconcileSpec_record (fs : Faults) (w : WafAcl) (cl : Cloud) :
    ∃ cur, (reconcileSpec fs w cl).2.1 = { w with currentWafAclId := cur } := by
  rcases reconcileSpec_cases fs w cl with ⟨-, h⟩ | ⟨c, -, -, h⟩ | ⟨c, -, -, h⟩ | ⟨c, -, -, h⟩ <;>
    rw [h]
  exacts [⟨_, rfl⟩, ⟨_, rfl⟩, ⟨_, rfl⟩, ⟨_, rfl⟩]

/-- The step logs the planned call and changes WAF's ACL of no other load balancer. -/
theorem reconcileSpec_cloud (fs : Faults) (w : WafAcl) (cl : Cloud) :
    (reconcileSpec fs w cl).2.2.calls = cl.calls ++ (plannedCall w).toList ∧
      ∀ arn, w.loadBalancerArn ≠ some arn →
        (reconcileSpec fs w cl).2.2.webACLFor arn = cl.webACLFor arn := by
  have hother : ∀ c, plannedCall w = some c → ∀ arn, w.loadBalancerArn ≠ some arn →
      Function.update cl.webACLFor c.resourceArn c.webACLId arn = cl.webACLFor arn :=
    fun c hp arn harn => Function.update_noteq
      (fun he => harn (by rw [he]; exact (plannedCall_eq_some hp).1)) _ _
  rcases reconcileSpec_cases fs w cl with ⟨hp, h⟩ | ⟨c, hp, -, h⟩ | ⟨c, hp, -, h⟩ | ⟨c, hp, -, h⟩ <;>
    rw [h, hp]
  · exact ⟨(List.append_nil _).symm, fun _ _ => rfl⟩
  · exact ⟨rfl, fun _ _ => rfl⟩
  · exact ⟨rfl, hother c hp⟩
  · exact ⟨rfl, hother c hp⟩

/-- In a run whose replies are not lost, the record keeps tracking WAF. -/
theorem Tracks.reconcileSpec (h : Tracks w cl) (hrep : fs.Reported) :
    Tracks (reconcileSpec fs w cl).2.1 (reconcileSpec fs w cl).2.2 := by
  rcases reconcileSpec_cases fs w cl with ⟨-, hs⟩ | ⟨c, -, -, hs⟩ | ⟨c, -, hf, -⟩ | ⟨c, hp, -, hs⟩
  · rw [hs]; exact h
  · rw [hs]; exact h
  · exact absurd hf (hrep.outcome c)
  · rw [hs]
    intro arn harn
    have harn' : arn = c.resourceArn :=
      Option.some_injective _ (harn.symm.trans (plannedCall_eq_some hp).1)
    subst harn'
    exact Function.update_same _ _ _

/-- A step that returns `ok` on a record with a load balancer leaves it at the desired ACL. -/
theorem reconcileSpec_current {arn : String} (harn : w.loadBalancerArn = some arn)
    (hok : (reconcileSpec fs w cl).1 = .ok ()) :
    (reconcileSpec fs w cl).2.1.currentWafAclId = w.desiredWafAclId := by
  rcases reconcileSpec_cases fs w cl with ⟨hp, hs⟩ | ⟨c, -, -, hs⟩ | ⟨c, -, -, hs⟩ | ⟨c, hp, -, hs⟩ <;>
    rw [hs] at hok ⊢
  · exact (plannedCall_eq_none.mp hp).resolve_left (by simp [harn])
  · cases hok
  · cases hok
  · exact (plannedCall_eq_some hp).2.1

end Step

/-- After a `Reconcile` that returned `ok` there is no call left to plan. -/
theorem plannedCall_after {fs : Faults} {w w' : WafAcl} {cl cl' : Cloud}
    (hx : (.ok (), w', cl') = reconcileSpec fs w cl) : plannedCall w' = none := by
  obtain ⟨cur, hw⟩ := reconcileSpec_record fs w cl
  rw [← hx] at hw
  dsimp only at hw
  cases harn : w.loadBalancerArn with
  | none => exact plannedCall_eq_none.mpr (.inl (by rw [hw]; exact harn))
  | some arn =>
    have hcur := reconcileSpec_current harn (by rw [← hx])
    rw [← hx] at hcur
    dsimp only at hcur
    exact plannedCall_eq_none.mpr (.inr (by rw [hcur, hw]))

/-- A `Reconcile` that returned `ok` leaves a record on which `Reconcile`, whatever its
faults, makes no call and changes nothing. -/
theorem reconcile_idempotent {fs : Faults} {w w' : WafAcl} {cl cl' : Cloud}
    (hok : reconcile fs w cl = .ok (.ok (), w', cl')) (fs' : Faults) :
    reconcile fs' w' cl' = .ok (.ok (), w', cl') := by
  have hx := reconcile_ok hok
  obtain ⟨cur, hw⟩ := reconcileSpec_record fs w cl
  rw [← hx] at hw
  dsimp only at hw
  cases hid : w.ingressID with
  | some id =>
    rw [reconcile_eq_spec fs' cl' (show w'.ingressID = some id by rw [hw]; exact hid),
      reconcileSpec, plannedCall_after hx]
    rfl
  | none =>
    rw [reconcile_of_ingressID_none fs cl hid] at hok
    split_ifs at hok with hnone
    cases hok
    rw [reconcile_of_ingressID_none fs' cl hid, if_pos hnone]
    rfl

/-! ### Runs -/

/-- A run of syncs of one record: before each `Reconcile` the annotation sets the desired
ACL. A panic stops the sync before any call, and the next sync starts from the same state. -/
def syncs (w : WafAcl) (cl : Cloud) : List (Option String × Faults) → WafAcl × Cloud
  | [] => (w, cl)
  | (desired, fs) :: rest =>
    match reconcile fs { w with desiredWafAclId := desired } cl with
    | .ok (_, w', cl') => syncs w' cl' rest
    | .error _ => syncs w cl rest

/-- A run keeps the record's load balancer and ingress ID, and changes WAF's ACL of no other
load balancer. -/
theorem syncs_frame (w : WafAcl) (cl : Cloud) (runs : List (Option String × Faults)) :
    (syncs w cl runs).1.loadBalancerArn = w.loadBalancerArn ∧
      (syncs w cl runs).1.ingressID = w.ingressID ∧
      ∀ arn, w.loadBalancerArn ≠ some arn → (syncs w cl runs).2.webACLFor arn = cl.webACLFor arn := by
  induction runs generalizing w cl with
  | nil => exact ⟨rfl, rfl, fun _ _ => rfl⟩
  | cons run runs ih =>
    obtain ⟨desired, fs⟩ := run
    simp only [AlbIngress.Waf.syncs]
    split
    · next x w' cl' hx =>
      obtain ⟨cur, hw⟩ := reconcileSpec_record fs { w with desiredWafAclId := desired } cl
      have hcl := (reconcileSpec_cloud fs { w with desiredWafAclId := desired } cl).2
      rw [← reconcile_ok hx] at hw hcl
      dsimp only at hw hcl
      obtain ⟨h₂, h₃, h₄⟩ := ih w' cl'
      refine ⟨by rw [h₂, hw], by rw [h₃, hw], fun arn harn => ?_⟩
      rw [h₄ arn (by rw [hw]; exact harn)]
      exact hcl arn harn
    · exact ih w cl

/-- A run in which no reply is lost keeps the record tracking WAF. -/
theorem Tracks.syncs {w : WafAcl} {cl : Cloud} (h : Tracks w cl) {runs : List (Option String × Faults)}
    (hrep : ∀ r ∈ runs, r.2.Reported) : Tracks (syncs w cl runs).1 (syncs w cl runs).2 := by
  induction runs generalizing w cl with
  | nil => exact h
  | cons run runs ih =>
    obtain ⟨desired, fs⟩ := run
    simp only [AlbIngress.Waf.syncs]
    split
    · next x w' cl' hx =>
      have hstep := @Tracks.reconcileSpec fs { w with desiredWafAclId := desired } cl h
        (hrep _ (.head _))
      rw [← reconcile_ok hx] at hstep
      exact ih hstep fun r hr => hrep r (.tail _ hr)
    · exact ih h fun r hr => hrep r (.tail _ hr)

/-- Convergence under partial failure, as long as no reply is lost: from a record that
tracks WAF, whatever syncs came before and whatever was rejected in them, a sync whose
`Reconcile` returns `ok` leaves WAF with the annotation's ACL on the load balancer, and the
next `Reconcile`, whatever its faults, makes no call and changes nothing. -/
theorem syncs_converge (w : WafAcl) (cl : Cloud) (runs : List (Option String × Faults))
    (desired : Option String) (fs : Faults) {arn : String} {w' : WafAcl} {cl' : Cloud}
    (h : Tracks w cl) (hrep : ∀ r ∈ runs, r.2.Reported) (harn : w.loadBalancerArn = some arn)
    (hok : reconcile fs { (syncs w cl runs).1 with desiredWafAclId := desired } (syncs w cl runs).2 =
      .ok (.ok (), w', cl')) :
    cl'.webACLFor arn = desired ∧ w'.currentWafAclId = desired ∧
      ∀ fs', reconcile fs' w' cl' = .ok (.ok (), w', cl') := by
  have htrack := h.syncs hrep
  have harn₀ : ({ (syncs w cl runs).1 with desiredWafAclId := desired } : WafAcl).loadBalancerArn =
      some arn := (syncs_frame w cl runs).1.trans harn
  have hx := reconcile_ok hok
  have hcur := reconcileSpec_current harn₀ (by rw [← hx])
  obtain ⟨cur, hw⟩ := reconcileSpec_record fs { (syncs w cl runs).1 with desiredWafAclId := desired }
    (syncs w cl runs).2
  rw [← hx] at hcur hw
  dsimp only at hcur hw
  refine ⟨?_, hcur, reconcile_idempotent hok⟩
  -- an `ok` reply means the planned call, if any, succeeded
  rcases reconcileSpec_cases fs { (syncs w cl runs).1 with desiredWafAclId := desired }
      (syncs w cl runs).2 with ⟨-, hs⟩ | ⟨c, -, -, hs⟩ | ⟨c, -, -, hs⟩ | ⟨c, hp, -, hs⟩ <;>
    rw [hs] at hx <;> cases hx
  · rw [← hcur]
    exact htrack arn harn₀
  · obtain ⟨hres, hacl, -⟩ := plannedCall_eq_some hp
    rw [Option.some_injective _ (hres.symm.trans harn₀)]
    exact (Function.update_same _ _ _).trans hacl

theorem syncs_converge_web :
    let w : WafAcl := ⟨some "web", some "arn-1", some "acl-1", some "acl-1"⟩
    let cl : Cloud := ⟨fun _ => some "acl-1", []⟩
    let runs : List (Option String × Faults) := [(some "acl-2", ⟨.rejected, .succeeds⟩)]
    let w' : WafAcl := ⟨some "web", some "arn-1", some "acl-2", some "acl-2"⟩
    let cl' : Cloud := ⟨Function.update (fun _ => some "acl-1") "arn-1" (some "acl-2"),
      [.associate "arn-1" "acl-2", .associate "arn-1" "acl-2"]⟩
    Tracks w cl ∧ (∀ r ∈ runs, r.2.Reported) ∧ w.loadBalancerArn = some "arn-1" ∧
      reconcile Faults.none { (syncs w cl runs).1 with desiredWafAclId := some "acl-2" }
        (syncs w cl runs).2 = .ok (.ok (), w', cl') ∧
      cl'.webACLFor "arn-1" = some "acl-2" ∧
      reconcile ⟨.replyLost, .replyLost⟩ w' cl' = .ok (.ok (), w', cl') := by
  intro w cl runs w' cl'
  have hok : reconcile Faults.none { (syncs w cl runs).1 with desiredWafAclId := some "acl-2" }
      (syncs w cl runs).2 = .ok (.ok (), w', cl') := rfl
  have hconv := syncs_converge w cl runs _ _ (fun _ _ => rfl) (by decide) rfl hok
  exact ⟨fun _ _ => rfl, by decide, rfl, hok, hconv.1, hconv.2.2 _⟩

/-- With the current ACL the desired one, `Reconcile` has nothing to do. -/
theorem reconcile_of_current_eq_desired (fs : Faults) {w : WafAcl} (cl : Cloud) {id : String}
    (hid : w.ingressID = some id) (h : w.currentWafAclId = w.desiredWafAclId) :
    reconcile fs w cl = .ok (.ok (), w, cl) := by
  rw [reconcile_eq_spec fs cl hid, reconcileSpec, plannedCall_eq_none.mpr (.inr h)]
  rfl

/-- Syncs that ask for the ACL the record holds change nothing in WAF. -/
theorem syncs_of_current {w : WafAcl} {cl : Cloud} {id acl : String} (hid : w.ingressID = some id)
    (hcur : w.currentWafAclId = some acl) (runs : List Faults) :
    (syncs w cl (runs.map (some acl, ·))).2 = cl := by
  induction runs generalizing w with
  | nil => rfl
  | cons fs runs ih =>
    rw [List.map_cons, AlbIngress.Waf.syncs,
      reconcile_of_current_eq_desired fs (w := { w with desiredWafAclId := some acl }) cl hid hcur]
    exact ih hid hcur

/-- A `Disassociate` that takes effect but whose reply is lost: the record keeps the old ACL
while WAF holds none. Once the annotation names that ACL again, every later sync, whatever
its faults, finds nothing to do: it makes no call, and the load balancer stays without the
ACL the annotation names. -/
theorem syncs_after_lost_disassociate (w : WafAcl) (cl : Cloud) (fs : Faults)
    {id arn acl : String} (hid : w.ingressID = some id) (harn : w.loadBalancerArn = some arn)
    (hcur : w.currentWafAclId = some acl) (hlost : fs.disassociate = .replyLost)
    (runs : List Faults) :
    (syncs w cl [(none, fs)]).2.webACLFor arn = none ∧
      (syncs w cl [(none, fs)]).1.currentWafAclId = some acl ∧
      (syncs (syncs w cl [(none, fs)]).1 (syncs w cl [(none, fs)]).2 (runs.map (some acl, ·))).2 =
        (syncs w cl [(none, fs)]).2 := by
  have hfirst : syncs w cl [(none, fs)] = ({ w with desiredWafAclId := none },
      ⟨Function.update cl.webACLFor arn none, cl.calls ++ [.disassociate arn]⟩) := by
    simp [AlbIngress.Waf.syncs, reconcile, hid, harn, hcur, disassociate, mutate, perform,
      Call.outcome, hlost, Call.resourceArn, Call.webACLId, pure, Except.pure]
  rw [hfirst]
  exact ⟨Function.update_same _ _ _, hcur,
    syncs_of_current (w := { w with desiredWafAclId := none }) hid hcur runs⟩

theorem syncs_after_lost_disassociate_web :
    (syncs ⟨some "web", some "arn-1", some "acl-1", some "acl-1"⟩ ⟨fun _ => some "acl-1", []⟩
        [(none, ⟨.succeeds, .replyLost⟩)]).2.webACLFor "arn-1" = none ∧
      (syncs ⟨some "web", some "arn-1", some "acl-1", some "acl-1"⟩ ⟨fun _ => some "acl-1", []⟩
        [(none, ⟨.succeeds, .replyLost⟩)]).1.currentWafAclId = some "acl-1" ∧
      (syncs ⟨some "web", some "arn-1", some "acl-1", none⟩
        ⟨Function.update (fun _ => some "acl-1") "arn-1" none, [.disassociate "arn-1"]⟩
        [(some "acl-1", Faults.none), (some "acl-1", Faults.none)]).2.webACLFor "arn-1" = none :=
  let h := syncs_after_lost_disassociate ⟨some "web", some "arn-1", some "acl-1", some "acl-1"⟩
    ⟨fun _ => some "acl-1", []⟩ ⟨.succeeds, .replyLost⟩ rfl rfl rfl rfl
    [Faults.none, Faults.none]
  ⟨h.1, h.2.1, congrArg (fun cl => cl.webACLFor "arn-1") h.2.2 |>.trans h.1⟩

/-- `Reconcile` makes at most one WAF call: on its own load balancer, leaving the desired ACL
(so it never disassociates while an ACL is desired, and changes an ACL with one `Associate`),
and none when there is no load balancer ARN or the current ACL is the desired one. It
changes WAF's ACL of no other load balancer. Without an ingress ID it panics, before any
call, exactly when an ACL is current or desired. -/
theorem reconcile_one_call (fs : Faults) (w : WafAcl) (cl : Cloud) :
    (∀ x, reconcile fs w cl = .ok x →
      x.2.2.calls = cl.calls ++ (plannedCall w).toList ∧
        ∀ arn, w.loadBalancerArn ≠ some arn → x.2.2.webACLFor arn = cl.webACLFor arn) ∧
      (plannedCall w = none ↔
        w.loadBalancerArn = none ∨ w.currentWafAclId = w.desiredWafAclId) ∧
      (∀ c ∈ plannedCall w, w.loadBalancerArn = some c.resourceArn ∧
        c.webACLId = w.desiredWafAclId) ∧
      (reconcile fs w cl = .error .nilPointerDereference ↔
        w.ingressID = none ∧ ¬(w.desiredWafAclId = none ∧ w.currentWafAclId = none)) := by
  refine ⟨fun x hx => reconcile_ok hx ▸ reconcileSpec_cloud fs w cl, plannedCall_eq_none,
    fun c hc => ⟨(plannedCall_eq_some hc).1, (plannedCall_eq_some hc).2.1⟩, ?_⟩
  cases hid : w.ingressID with
  | some id => simp [reconcile_eq_spec fs cl hid, pure, Except.pure]
  | none =>
    rw [reconcile_of_ingressID_none fs cl hid]
    split_ifs with hnone <;> simp [hnone, pure, Except.pure]

/-- A change of ACL is one `Associate`. -/
example : (reconcile Faults.none ⟨some "web", some "arn-1", some "acl-1", some "acl-2"⟩
    ⟨fun _ => some "acl-1", []⟩).map (·.2.2.calls) = .ok [.associate "arn-1" "acl-2"] := rfl

/-- A record `NewWafAcl` builds with an ingress ID: `Reconcile` never calls `Disassociate` on
it. When the annotation names an ACL and the load balancer has an ARN it makes one
`Associate` of that ACL, and WAF then holds the ACL unless the call was rejected; otherwise
it makes no call and reports success, whatever ACL WAF has for the load balancer, so
removing the annotation leaves that ACL in place. -/
theorem reconcile_newWafAcl (fs : Faults) (annotations : Annotations)
    (loadBalancer : Option LoadBalancer) (id : String) (cl : Cloud) :
    plannedCall (newWafAcl annotations loadBalancer (some id)) =
        (newWafAcl annotations loadBalancer (some id)).loadBalancerArn.bind
          (fun arn => annotations.wafAclId.map (.associate arn)) ∧
      (∀ arn acl, (newWafAcl annotations loadBalancer (some id)).loadBalancerArn = some arn →
        annotations.wafAclId = some acl →
        ∃ r, reconcile fs (newWafAcl annotations loadBalancer (some id)) cl = .ok r ∧
          r.2.2.calls = cl.calls ++ [.associate arn acl] ∧
          (r.2.2.webACLFor arn = some acl ∨ fs.associate = .rejected)) ∧
      (annotations.wafAclId = none ∨
          (newWafAcl annotations loadBalancer (some id)).loadBalancerArn = none →
        reconcile fs (newWafAcl annotations loadBalancer (some id)) cl =
          .ok (.ok (), newWafAcl annotations loadBalancer (some id), cl)) := by
  have hplan : plannedCall (newWafAcl annotations loadBalancer (some id)) =
      (newWafAcl annotations loadBalancer (some id)).loadBalancerArn.bind
        (fun arn => annotations.wafAclId.map (.associate arn)) := by
    unfold plannedCall
    split
    · next harn => rw [harn]; rfl
    · next arn harn =>
      rw [harn]
      cases hacl : annotations.wafAclId <;> simp [newWafAcl, hacl]
  refine ⟨hplan, fun arn acl harn hacl => ?_, fun hnone => ?_⟩ <;>
    rw [reconcile_eq_spec fs cl rfl, reconcileSpec, hplan]
  · rw [harn, hacl]
    cases hf : fs.associate <;>
      simp [perform, Call.outcome, Call.resourceArn, Call.webACLId, hf, pure, Except.pure]
  · rcases hnone with h | h <;> simp [h] <;> rfl

end AlbIngress.Waf
