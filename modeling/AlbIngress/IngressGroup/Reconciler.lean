import AlbIngress.IngressGroup.Cluster

/-!
`GroupReconciler.Reconcile` and the runs of the controller it takes part in. One call makes
seven calls in turn: `Load`, `AddGroupFinalizer` on the members, `Build`, `Marshal`,
`Deploy` of the stack built from the members, `Resolve` of the load balancer's ARN, and
`RemoveGroupFinalizer` on the inactive members; the first failure ends it.
`MaxConcurrentReconciles: 1` lets one call run at a time, and the user's edits land
between any two of its steps.

The cloud holds, for each group, the ingresses whose rules its deployed stack contains. A
deploy that fails may have applied part of the stack: what it leaves deployed comes from
the stack before it and the stack it was deploying.

`lb.LoadBalancerARN().Resolve` reads the status that `Deploy` fills in: a load balancer
that was not deployed is an error, and a nil one panics when `lb.Status` is read.
-/

namespace AlbIngress.IngressGroup

open AlbIngress.Controller

/-- `elbv2model.LoadBalancer` as `Build` returns it, with the status `Deploy` fills in. -/
structure LoadBalancer where
  id : String
  status : Option String
  deriving DecidableEq, Repr

def nilPointerDereference : String :=
  "runtime error: invalid memory address or nil pointer dereference"

/-- `lb.LoadBalancerARN().Resolve(ctx)`. -/
def resolveLoadBalancerARN : Option LoadBalancer → Except Failure String
  | none => .error (.panic nilPointerDereference)
  | some lb =>
    match lb.status with
    | some arn => .ok arn
    | none => .error (.error ("LoadBalancer is not fulfilled yet: " ++ lb.id))

/-- The last step a `Reconcile` call has completed. `Build` returned the load balancer `lb`;
`Deploy` fills in its status. -/
inductive Stage
  | loaded
  | finalized
  | built (lb : Option LoadBalancer)
  | marshalled (lb : Option LoadBalancer)
  | deployed (lb : Option LoadBalancer)
  | resolved
  deriving DecidableEq, Repr

/-- A `Reconcile` call in flight: the group it loaded, and its stage. -/
structure Run where
  group : Group
  stage : Stage
  deriving DecidableEq, Repr

/-- The cluster, the deployed stacks, the call in flight, and how the last call ended. -/
structure World where
  cluster : Cluster
  deployed : String → List Key
  inflight : Option Run
  result : Option (Except Failure Unit)

/-- One event of a run: a user edit, a restart of the controller, or the next step of the
call in flight with the outcome of the API calls it makes. -/
inductive Action
  | user (u : UserAction)
  | load (groupID : String) (ok : Bool)
  | addGroupFinalizer (fault : Option Nat)
  | build (result : Except String (Option LoadBalancer))
  | marshal (result : Except String String)
  | deploy (result : Except (List Key) String)
  | resolve
  | removeGroupFinalizer (fault : Option Nat)
  | restart

/-- The call in flight ends with `r`. -/
def World.finish (w : World) (r : Except Failure Unit) : World :=
  { w with inflight := none, result := some r }

@[simp] theorem World.finish_cluster (w : World) (r : Except Failure Unit) :
    (w.finish r).cluster = w.cluster := rfl

@[simp] theorem World.finish_deployed (w : World) (r : Except Failure Unit) :
    (w.finish r).deployed = w.deployed := rfl

@[simp] theorem World.finish_inflight (w : World) (r : Except Failure Unit) :
    (w.finish r).inflight = none := rfl

/-- The stacks after a deploy of `group`: its members on success; on failure, the part
`applied` of what was deployed before and what was being deployed. -/
def deployedAfter (deployed : String → List Key) (group : Group) :
    Except (List Key) String → String → List Key
  | .ok _ => Function.update deployed group.id group.members
  | .error applied => Function.update deployed group.id
    (applied.filter fun k => (deployed group.id).contains k || group.members.contains k)

/-- The load balancer as `Deploy` leaves it. -/
def deployedLoadBalancer (lb : Option LoadBalancer) : Except (List Key) String →
    Option LoadBalancer
  | .ok arn => lb.map fun l => { l with status := some arn }
  | .error _ => lb

def step (w : World) : Action → World
  | .user u => { w with cluster := userStep w.cluster u }
  | .load groupID ok =>
    match w.inflight with
    | some _ => w
    | none =>
      if ok then { w with inflight := some ⟨load w.cluster groupID, .loaded⟩ }
      else w.finish (.error (.error "RequestError"))
  | .addGroupFinalizer fault =>
    match w.inflight with
    | some ⟨group, .loaded⟩ =>
      match addGroupFinalizer w.cluster group.id group.members fault with
      | (.ok (), c) => { w with cluster := c, inflight := some ⟨group, .finalized⟩ }
      | (.error e, c) => { w with cluster := c }.finish (.error e)
    | _ => w
  | .build result =>
    match w.inflight, result with
    | some ⟨group, .finalized⟩, .ok lb => { w with inflight := some ⟨group, .built lb⟩ }
    | some ⟨_, .finalized⟩, .error e => w.finish (.error (.error e))
    | _, _ => w
  | .marshal result =>
    match w.inflight, result with
    | some ⟨group, .built lb⟩, .ok _ => { w with inflight := some ⟨group, .marshalled lb⟩ }
    | some ⟨_, .built _⟩, .error e => w.finish (.error (.error e))
    | _, _ => w
  | .deploy result =>
    match w.inflight, result with
    | some ⟨group, .marshalled lb⟩, .ok arn =>
      { w with deployed := deployedAfter w.deployed group (.ok arn)
               inflight := some ⟨group, .deployed (deployedLoadBalancer lb (.ok arn))⟩ }
    | some ⟨group, .marshalled _⟩, .error applied =>
      { w with deployed := deployedAfter w.deployed group (.error applied) }.finish
        (.error (.error "RequestError"))
    | _, _ => w
  | .resolve =>
    match w.inflight with
    | some ⟨group, .deployed lb⟩ =>
      match resolveLoadBalancerARN lb with
      | .ok _ => { w with inflight := some ⟨group, .resolved⟩ }
      | .error e => w.finish (.error e)
    | _ => w
  | .removeGroupFinalizer fault =>
    match w.inflight with
    | some ⟨group, .resolved⟩ =>
      let r := removeGroupFinalizer w.cluster group.id group.inactiveMembers fault
      { w with cluster := r.2 }.finish r.1
    | _ => w
  | .restart => { w with inflight := none }

def run (w : World) (actions : List Action) : World :=
  actions.foldl step w

@[simp] theorem run_nil (w : World) : run w [] = w := rfl

@[simp] theorem run_cons (w : World) (a : Action) (actions : List Action) :
    run w (a :: actions) = run (step w a) actions := rfl

/-! ### One call of `Reconcile` -/

/-- What the calls of one `Reconcile` return, as the actions of a run carry it. -/
structure Outcome where
  load : Bool
  addGroupFinalizer : Option Nat
  build : Except String (Option LoadBalancer)
  marshal : Except String String
  deploy : Except (List Key) String
  removeGroupFinalizer : Option Nat

/-- `GroupReconciler.Reconcile` for the group `groupID`, its calls having the outcome `o`. -/
def reconcile (groupID : String) (o : Outcome) (w : World) : World :=
  if !o.load then w.finish (.error (.error "RequestError")) else
  let group := load w.cluster groupID
  match addGroupFinalizer w.cluster groupID group.members o.addGroupFinalizer with
  | (.error e, c) => { w with cluster := c }.finish (.error e)
  | (.ok (), c) =>
    match o.build with
    | .error e => { w with cluster := c }.finish (.error (.error e))
    | .ok lb =>
      match o.marshal with
      | .error e => { w with cluster := c }.finish (.error (.error e))
      | .ok _ =>
        let w := { w with cluster := c, deployed := deployedAfter w.deployed group o.deploy }
        match o.deploy with
        | .error _ => w.finish (.error (.error "RequestError"))
        | .ok arn =>
          match resolveLoadBalancerARN (deployedLoadBalancer lb (.ok arn)) with
          | .error e => w.finish (.error e)
          | .ok _ =>
            let r := removeGroupFinalizer c groupID group.inactiveMembers o.removeGroupFinalizer
            { w with cluster := r.2 }.finish r.1

/-- The actions of one call of `Reconcile`, in order. -/
def Outcome.actions (groupID : String) (o : Outcome) : List Action :=
  [.load groupID o.load, .addGroupFinalizer o.addGroupFinalizer, .build o.build,
    .marshal o.marshal, .deploy o.deploy, .resolve, .removeGroupFinalizer o.removeGroupFinalizer]

/-- A call of `Reconcile` is a run of its seven steps from a world with no call in flight. -/
theorem run_actions_eq_reconcile (groupID : String) (o : Outcome) (w : World)
    (h : w.inflight = none) : run w (o.actions groupID) = reconcile groupID o w := by
  unfold reconcile
  cases hl : o.load
  · simp [Outcome.actions, step, h, hl, World.finish]
  rcases haf : addGroupFinalizer w.cluster groupID (load w.cluster groupID).members
    o.addGroupFinalizer with ⟨e | _, c⟩
  · simp [Outcome.actions, step, h, hl, haf, World.finish]
  rcases hb : o.build with e | lb
  · simp [Outcome.actions, step, h, hl, haf, hb, World.finish]
  rcases hm : o.marshal with e | json
  · simp [Outcome.actions, step, h, hl, haf, hb, hm, World.finish]
  rcases hd : o.deploy with applied | arn
  · simp [Outcome.actions, step, h, hl, haf, hb, hm, hd, World.finish]
  rcases hr : resolveLoadBalancerARN (deployedLoadBalancer lb (.ok arn)) with e | _ <;>
    simp [Outcome.actions, step, h, hl, haf, hb, hm, hd, hr, World.finish]

theorem run_actions_eq_reconcile_web :
    run ⟨⟨[], fun _ => none⟩, fun _ => [], none, none⟩
        ((⟨true, none, .ok none, .ok "{}", .ok "arn", none⟩ : Outcome).actions "web") =
      reconcile "web" ⟨true, none, .ok none, .ok "{}", .ok "arn", none⟩
        ⟨⟨[], fun _ => none⟩, fun _ => [], none, none⟩ :=
  run_actions_eq_reconcile "web" _ _ rfl

/-! ### Teardown -/

/-- A teardown whose `Build` returns no load balancer: `Load`, `AddGroupFinalizer`, `Build`,
`Marshal` and `Deploy` succeed and the group's stack is gone, but `Resolve` panics on the
nil load balancer before `RemoveGroupFinalizer`: the cluster is left as it was, and every
inactive member keeps the group's finalizer. -/
theorem reconcile_teardown_keeps_finalizers (groupID : String) (o : Outcome) (w : World)
    (json arn : String) (hmembers : (load w.cluster groupID).members = [])
    (hload : o.load = true) (hbuild : o.build = .ok none) (hmarshal : o.marshal = .ok json)
    (hdeploy : o.deploy = .ok arn) :
    reconcile groupID o w =
      { w with deployed := Function.update w.deployed groupID [] }.finish
        (.error (.panic nilPointerDereference)) := by
  simp [reconcile, hload, hmembers, addGroupFinalizer, patchAll, hbuild, hmarshal, hdeploy,
    deployedAfter, deployedLoadBalancer, resolveLoadBalancerARN]

theorem reconcile_teardown_keeps_finalizers_web :
    let w : World :=
      ⟨⟨["default/web"], fun k => if k = "default/web" then some ⟨"web", "alb", true, ["web"]⟩
        else none⟩, fun _ => ["default/web"], none, none⟩
    (load w.cluster "web").members = [] ∧ (load w.cluster "web").inactiveMembers = ["default/web"] ∧
      reconcile "web" ⟨true, none, .ok none, .ok "{}", .ok "arn", none⟩ w =
        { w with deployed := Function.update w.deployed "web" [] }.finish
          (.error (.panic nilPointerDereference)) :=
  ⟨rfl, rfl, reconcile_teardown_keeps_finalizers "web" ⟨true, none, .ok none, .ok "{}", .ok "arn", none⟩
    _ "{}" "arn" rfl rfl rfl rfl rfl⟩

/-- Every later call of the teardown ends the same way, whatever `Marshal` and `Deploy`
return and whatever faults the finalizer calls would meet: the finalizers are never
released. -/
theorem reconcile_teardown_repeats (groupID : String) (w : World)
    (hmembers : (load w.cluster groupID).members = []) (os : List Outcome) (hne : os ≠ [])
    (hteardown : ∀ o ∈ os, o.load = true ∧ o.build = .ok none ∧ (∃ json, o.marshal = .ok json) ∧
      ∃ arn, o.deploy = .ok arn) :
    os.foldl (fun w o => reconcile groupID o w) w =
      { w with deployed := Function.update w.deployed groupID [] }.finish
        (.error (.panic nilPointerDereference)) := by
  induction os generalizing w with
  | nil => exact absurd rfl hne
  | cons o os ih =>
    obtain ⟨hload, hbuild, ⟨json, hmarshal⟩, arn, hdeploy⟩ := hteardown o (.head _)
    rw [List.foldl_cons, reconcile_teardown_keeps_finalizers groupID o w json arn hmembers hload
      hbuild hmarshal hdeploy]
    cases os with
    | nil => rfl
    | cons o' os =>
      -- the torn-down world is a fixed point of the next call
      refine (ih _ ?_ (List.cons_ne_nil _ _) fun o ho => hteardown o (.tail _ ho)).trans ?_
      · exact hmembers
      · simp [World.finish]

theorem reconcile_teardown_repeats_web :
    let w : World :=
      ⟨⟨["default/web"], fun k => if k = "default/web" then some ⟨"web", "alb", true, ["web"]⟩
        else none⟩, fun _ => ["default/web"], none, none⟩
    [(⟨true, none, .ok none, .ok "{}", .ok "arn", none⟩ : Outcome),
        ⟨true, some 0, .ok none, .ok "[]", .ok "arn-2", some 0⟩].foldl
        (fun w o => reconcile "web" o w) w =
      { w with deployed := Function.update w.deployed "web" [] }.finish
        (.error (.panic nilPointerDereference)) := by
  intro w
  refine reconcile_teardown_repeats "web" w rfl _ (List.cons_ne_nil _ _) fun o ho => ?_
  simp only [List.mem_cons, List.mem_singleton, List.not_mem_nil, or_false] at ho
  rcases ho with rfl | rfl <;> exact ⟨rfl, rfl, ⟨_, rfl⟩, _, rfl⟩

end AlbIngress.IngressGroup
