import Onlyne.Resources.Changes

/-!
# The tools of an MCP server as operations of a resource

The MCP gateway registers one resource for a configured server and bridges its operations to `tools/call`.  Three
lists decide whether an operation gets there: the operations stored with the registration, the list the last start
that reached the server left in the store, and the list of the connection, which is refreshed on demand.
`tool_called_iff` says over every history which of the tools that the server lists can be called.
-/

namespace Onlyne.Mcp

open Foundation Resources Option

/-- A configured server, and the node that serves its resource with the bridge as its driver. -/
structure Config where
  ctx : Resources.Context
  driven : ctx.driver = true
  name : String
  -- `allowed_tools`
  allowedTools : Option (List String) := none
  controllers : List NodeId := []
  -- What the resource says of a tool list.
  data : List String → Option Data := fun _ => none

structure Gateway where
  node : Resources.Node := {}
  -- The row `mcp/tools/<name>`.
  cached : List String := []
  -- `#tools` of the connection.
  tools : List String := []
  -- What the server lists now, or why it does not answer.
  server : Except String (List String) := .error ""

inductive Reply where
  | failed (thrown : Thrown)
  -- `tools/call` is sent to the server.
  | called (tool : String) (arguments : Json)
  -- The call goes on in the node.
  | left (task : Task)
  deriving DecidableEq

namespace Config

variable (config : Config)

def ref : ResourceRef := ⟨config.ctx.node, config.name⟩

def handler : NodeId := config.controllers.head?.getD config.ctx.node

def allows (tool : String) : Bool := config.allowedTools.all fun allowed => allowed.contains tool

/-- `resourceOf`, and what `createMcpGateway` registers of it. -/
def resource (tools : List String) : Resource where
  resourceRef := config.ref
  kind := "mcp"
  operations := tools
  binding := ⟨config.handler, "0"⟩
  logReaders := (config.ctx.node :: config.controllers).eraseDups
  revision := "rev-1"
  eventSeq := "0"
  retentionMs := 0
  data := config.data tools

def describe (s : Store) : Except Thrown Resource := do
  let resource ← live s config.ref
  failIf (!mayRead resource config.ctx.node) .notFound "The requested resource is unavailable."
  .ok resource

/-- `registerResource`: only a resource that is not found is registered. -/
def registerResource (tools : List String) (s : Store) : Store :=
  match config.describe s with
  | .error (.onlyne failure) =>
    if failure.code = .notFound then committed s (register config.ctx config.ctx.node (config.resource tools) s) else s
  | _ => s

end Config

namespace Gateway

variable (config : Config) (g : Gateway)

/-- `createMcpGateway` in a new process: what the server lists is cached, and the cache stands in for it. -/
def start : Gateway :=
  let tools := g.server.toOption.getD g.cached
  { g with
    node := ⟨config.registerResource tools g.node.store, []⟩
    cached := tools
    tools := g.server.toOption.getD [] }

/-- `resolveTool`, with the list of the connection after it: a name that is not in the list refreshes it. -/
def resolveTool (tool : String) : Except Thrown Unit × List String :=
  if !config.allows tool then
    (.error (Core.throws .forbidden
      ("The local policy does not allow the tool " ++ tool ++ " on " ++ config.name ++ ".")), g.tools)
  else if g.tools.contains tool then (.ok (), g.tools)
  else
    match g.server with
    | .error source =>
      (.error (.onlyne (onlyneError .unavailable ("The MCP server " ++ config.name ++ " could not list its tools.")
        (some (.object [("source", .string source)])))), g.tools)
    | .ok live =>
      (failIf (!live.contains tool) .unsupportedDelivery
        ("The tool " ++ tool ++ " is not in " ++ config.name ++ "'s tools/list."), live)

def requireTool (ref : ResourceRef) (operation : String) : Except Thrown Unit × List String :=
  if ref.id = config.name then g.resolveTool config operation
  else (.error (Core.throws .invalidRequest ("No MCP server serves the resource " ++ ref.id ++ ".")), g.tools)

def isObject : Json → Bool
  | .object _ => true
  | _ => false

section

variable (call : Call) (resource : Resource) (request : OperationRequest) (clock : Clock)

/-- `validate` of the bridge. -/
def validate : Except Thrown Unit × List String :=
  match g.requireTool config resource.resourceRef request.operation with
  | (.ok (), tools) =>
    (failIf (request.data.any fun data => !isObject data.1) .invalidRequest
      ("The arguments for " ++ request.operation ++ " are an object."), tools)
  | refused => refused

def arguments : Json := (request.data.map Subtype.val).getD (.object [])

/-- `execute` of the bridge; without an answer of the server the outcome is unknown. -/
def execute : Reply × List String :=
  match g.requireTool config resource.resourceRef call.request.operation, g.server with
  | (.ok (), tools), .ok _ => (.called call.request.operation (arguments call.request), tools)
  | (_, tools), _ => (.left (.executing call), tools)

def leave (s : Store) (task : Task) : Gateway := { g with node := ⟨s, g.node.tasks ++ [task]⟩ }

/-- The driver's part of `operate`: the operation is claimed once it is validated. -/
def drive : Reply × Gateway :=
  let (valid, tools) := g.validate config resource call.request
  let g := { g with tools }
  match valid, claimOperation config.ctx call clock g.node.store with
  | .error thrown, _ | .ok (), .error thrown => (.failed thrown, g)
  | .ok (), .ok ((_, false), s) => (.left (.prior call), g.leave s (.prior call))
  | .ok (), .ok ((_, true), s) =>
    let (reply, tools) := g.execute config call resource
    (reply, ({ g with tools }).leave s (.executing call))

/-- `operate`, up to the call of the server or to where the node answers it by itself. -/
def operate : Reply × Gateway :=
  let s := g.node.store
  match requireOwner config.ctx call.ref.owner, s.operation.get call.key, dispatch config.ctx call s with
  | .error thrown, _, _ | .ok (), none, .error thrown => (.failed thrown, g)
  | .ok (), some _, _ => (.left (.prior call), g.leave s (.prior call))
  | .ok (), none, .ok (.validate _ resource) => g.drive config call resource clock
  | .ok (), none, .ok task => (.left task, g.leave s task)

end

end Gateway

inductive GatewayAct where
  -- The server comes up, goes down or changes its tools.
  | serves (server : Except String (List String))
  -- The process starts, again or for the first time.
  | start
  -- Another caller of the connection refreshes its list.
  | refresh
  | operate (call : Call) (clock : Clock)
  -- What else the node does; it registers nothing by itself.
  | node (act : Resources.Act)

def gatewayStep (config : Config) (g : Gateway) : GatewayAct → Option Gateway
  | .serves server => some { g with server }
  | .start => some (g.start config)
  | .refresh => some { g with tools := g.server.toOption.getD g.tools }
  | .operate call clock => some (g.operate config call clock).2
  | .node (.register ..) => none
  | .node act => (Resources.step config.ctx g.node act).map fun node => { g with node }

def firstListed (h : List (Transition Gateway GatewayAct)) : Option (List String) :=
  (h.find? fun t => t.act matches .start).map fun t => t.before.server.toOption.getD []

/-- The handler submits a new operation, well formed and in time, that names a tool which the server lists and the
local policy allows. -/
abbrev Submits (config : Config) (g : Gateway) (call : Call) (clock : Clock) : Prop :=
  call.ref = config.ref ∧ call.actor ≠ "" ∧ g.node.store.operation.get call.key = none ∧
  (∃ resource ∈ g.node.store.resource.get config.ref, resource.binding.handler = call.actor ∧
    call.request.expectedRevision.any (fun expected => expected ≠ resource.revision) = false) ∧
  Core.deadline config.ctx.toContext clock.first clock.second call.request.retryUntil = .ok () ∧
  call.request.data.any (fun data => !Gateway.isObject data.1) = false ∧
  call.request.operation ∈ g.server.toOption.getD [] ∧ config.allows call.request.operation = true

/-! ## What is stored of the registration -/

def declared (resource : Resource) : ResourceRef × List String := (resource.resourceRef, resource.operations)

section Declared

variable {ref : ResourceRef}

theorem put_declared {rows : Table ResourceRef Resource} {at_ : ResourceRef} {resource new : Resource}
    (hrow : rows.get at_ = some resource) (hnew : declared new = declared resource) :
    ((rows.put at_ new).get ref).map declared = (rows.get ref).map declared := by
  by_cases hkey : ref = at_
  · subst hkey
    rw [Table.get_put_self, hrow, map_some, map_some, hnew]
  · rw [Table.get_put_ne _ _ hkey]

theorem Change.declared {ctx : Resources.Context} {s s' : Store} {a : Resources.Act} (h : Change ctx s a s')
    (hoth : ∀ actor resource, a ≠ .register actor resource) :
    (s'.resource.get ref).map declared = (s.resource.get ref).map declared := by
  cases h with
  | registered => exact absurd rfl (hoth _ _)
  | received row => exact put_declared row rfl
  | acked row => exact put_declared row rfl
  | switched _ _ row => exact put_declared row rfl
  | _ => rfl

variable {config : Config} {g : Gateway}

/-- A resource that is stored keeps what it declares; one that is not is registered, if it has a handler. -/
theorem registerResource_declared (tools : List String) (s : Store) :
    ((config.registerResource tools s).resource.get config.ref).map declared =
      ((s.resource.get config.ref).map declared).or
        (if config.handler = "" then none else some (config.ref, tools)) := by
  have hzero : decimal "0" = .ok 0 := rfl
  have hown : config.ref.owner = config.ctx.node := rfl
  cases hrow : s.resource.get config.ref with
  | none =>
    have hfnd : config.describe s = .error (Core.throws .notFound "The requested record is unavailable.") := by
      simp [Config.describe, live, requireValue, hrow, bind, Except.bind]
    by_cases hhdl : config.handler = "" <;>
      simp [Config.registerResource, hfnd, Core.throws, onlyneError, register, requireEndpoint, failIf,
        Config.resource, hown, hhdl, hzero, checked, registerTx, committed, hrow, bind, Except.bind, declared]
  | some stored =>
    have hsame : config.registerResource tools s = s := by
      unfold Config.registerResource
      split
      · split_ifs
        · refine committed_cases (P := (· = s)) rfl ?_
          intro value s' hreg
          rcases register_ok hreg with rfl | ⟨-, -, hfree, -⟩
          · rfl
          · cases hrow.symm.trans hfree
        · rfl
      · rfl
    rw [hsame, hrow]
    rfl

theorem drive_frame (call : Call) (resource : Resource) (clock : Clock) :
    (g.drive config call resource clock).2.cached = g.cached ∧
      (g.drive config call resource clock).2.node.store.resource = g.node.store.resource := by
  unfold Gateway.drive
  dsimp only
  split
  · exact ⟨rfl, rfl⟩
  · exact ⟨rfl, rfl⟩
  all_goals
    next hclm =>
    refine ⟨rfl, ?_⟩
    rcases claimOperation_ok hclm with ⟨-, rfl, -⟩ | ⟨-, -, _, -, -, -, rfl⟩ <;> rfl

theorem operate_frame (config : Config) (g : Gateway) (call : Call) (clock : Clock) :
    (g.operate config call clock).2.cached = g.cached ∧
      (g.operate config call clock).2.node.store.resource = g.node.store.resource := by
  unfold Gateway.operate
  dsimp only
  split
  case h_4 => exact drive_frame ..
  all_goals exact ⟨rfl, rfl⟩

end Declared

/-- What the stored row says after the history `h`: it declares what the server listed at the first start. -/
structure Registered (config : Config) (h : List (Transition Gateway GatewayAct)) (g : Gateway) : Prop where
  row : (g.node.store.resource.get config.ref).map declared = (firstListed h).bind fun tools =>
    if config.handler = "" then none else some (config.ref, tools)
  unstarted : firstListed h = none → g.cached = []

section Runs

variable {config : Config} {h : List (Transition Gateway GatewayAct)} {g g' : Gateway} {call : Call} {clock : Clock}
  {ctx : Resources.Context} {s : Store}

theorem firstListed_snoc (t : Transition Gateway GatewayAct) :
    firstListed (h ++ [t]) = (firstListed h).or (firstListed [t]) := by
  simp only [firstListed, List.find?_append, map_or]

section

variable (hs : Registered config h g) {a : GatewayAct}
include hs

theorem Registered.start : Registered config (h ++ [⟨g, .start, g.start config⟩]) (g.start config) where
  row := by
    rw [Gateway.start, registerResource_declared, hs.row, firstListed_snoc]
    cases hfst : firstListed h with
    | none => rw [hs.unstarted hfst]; rfl
    | some =>
      split_ifs <;> rfl
  unstarted hnone := by
    rw [firstListed_snoc] at hnone
    cases (or_eq_none_iff.mp hnone).2

theorem Registered.keeps (hoth : firstListed [⟨g, a, g'⟩] = none)
    (hcached : g'.cached = g.cached) (hrow : (g'.node.store.resource.get config.ref).map declared =
      (g.node.store.resource.get config.ref).map declared) : Registered config (h ++ [⟨g, a, g'⟩]) g' := by
  have hfst : firstListed (h ++ [⟨g, a, g'⟩]) = firstListed h := by rw [firstListed_snoc, hoth, or_none]
  exact ⟨by rw [hrow, hs.row, hfst], fun hnone => hcached.trans (hs.unstarted (hfst ▸ hnone))⟩

theorem Registered.step (hstep : gatewayStep config g a = some g') : Registered config (h ++ [⟨g, a, g'⟩]) g' := by
  unfold gatewayStep at hstep
  split at hstep
  · cases hstep
    exact hs.keeps rfl rfl rfl
  · cases hstep
    exact hs.start
  · cases hstep
    exact hs.keeps rfl rfl rfl
  · cases hstep
    obtain ⟨hcached, hrows⟩ := operate_frame _ _ _ _
    exact hs.keeps rfl hcached (by rw [hrows])
  · cases hstep
  · next act hreg =>
    obtain ⟨node, hnode, rfl⟩ := map_eq_some_iff.mp hstep
    exact hs.keeps rfl rfl (Change.declared (step_change hnode) hreg)

end

theorem dispatch_of_handler {resource : Resource} (hdriver : ctx.driver = true)
    (hrow : s.resource.get call.ref = some resource) (href : resource.resourceRef = call.ref)
    (hhdl : resource.binding.handler = call.actor)
    (hfence : call.request.expectedRevision.any (fun expected => expected ≠ resource.revision) = false) :
    dispatch ctx call s = if call.request.operation ∉ resource.operations then
        .error (Core.throws .unsupportedDelivery "The resource does not declare this operation.")
      else if call.handover then initiateChecks ctx call resource
      else if isQuery call.request.operation then .ok (.query call resource) else .ok (.validate call resource) := by
  have hread : mayRead resource call.actor = true := by simp [mayRead, hhdl]
  have hoperate : mayOperate resource call.actor call.request.operation = true := by
    simp [mayOperate, hread, hhdl]
  simp only [ne_eq, decide_not] at hfence
  by_cases hlist : call.request.operation ∈ resource.operations <;>
    simp [dispatch, live, requireValue, hrow, href, failIf, hread, hoperate, hfence, hhdl, hdriver, hlist, bind,
      Except.bind]

/-- A tool that the server lists and the policy allows is found, whatever list the connection has. -/
theorem requireTool_of_listed {live : List String} {tool : String} (hsrv : g.server = .ok live)
    (hlist : tool ∈ live) (hal : config.allows tool = true) :
    ∃ tools, g.requireTool config config.ref tool = (.ok (), tools) := by
  by_cases hkn : tool ∈ g.tools <;>
    simp [Gateway.requireTool, Gateway.resolveTool, Config.ref, hal, hkn, hsrv, hlist, failIf]

theorem claim_of_handler {resource : Resource} (clock : Clock)
    (hac : call.actor ≠ "") (hfree : s.operation.get call.key = none) (hrow : s.resource.get call.ref = some resource)
    (hmay : mayOperate resource call.actor call.request.operation = true)
    (hfence : call.request.expectedRevision.any (fun expected => expected ≠ resource.revision) = false)
    (hdl : Core.deadline ctx.toContext clock.first clock.second call.request.retryUntil = .ok ()) :
    ∃ record s', claimOperation ctx call clock s = .ok ((record, true), s') := by
  simp only [ne_eq, decide_not] at hfence
  simp [claimOperation, failIf, hac, hfree, hdl, requireValue, hrow, hmay, hfence, bind, Except.bind]

/-- **Which reachable tools can be called.**  Over every history of starts, with the server up or down and its tools
changing, of operations and of what else the node does: an operation of the handler that names a tool which the server
lists and the policy allows is sent to the server exactly when the server listed the tool at the first start and the
node has no operation of that name itself; one that was not listed then is answered `unsupported_delivery`. -/
theorem tool_called_iff (hrun : Run (gatewayStep config) {} h g) (hcall : Submits config g call clock) :
    ((g.operate config call clock).1 = .called call.request.operation (Gateway.arguments call.request) ↔
      call.request.operation ∈ (firstListed h).getD [] ∧ call.request.operation ≠ "handover" ∧
        isQuery call.request.operation = false) ∧
    (call.request.operation ∉ (firstListed h).getD [] → (g.operate config call clock).1 =
      .failed (Core.throws .unsupportedDelivery "The resource does not declare this operation.")) := by
  obtain ⟨href, hac, hfree, ⟨resource, hrow, hhdl, hfence⟩, hdl, hobject, hlist, hal⟩ := hcall
  have hreg : Registered config h g := hrun.induction_on ⟨rfl, fun _ => rfl⟩ fun _ _ _ _ _ hs hstep => hs.step hstep
  have hstor := hreg.row
  rw [mem_def.mp hrow, map_some] at hstor
  obtain ⟨tools, hfst, hdecl⟩ := bind_eq_some_iff.mp hstor.symm
  split_ifs at hdecl
  obtain ⟨hhome, hops⟩ : config.ref = resource.resourceRef ∧ tools = resource.operations := by
    simpa [declared] using hdecl
  rw [hfst, getD_some, hops]
  rw [← href] at hrow hhome
  have hown : requireOwner config.ctx call.ref.owner = .ok () := by
    rw [href]
    simp [requireOwner, Config.ref]
  have hdisp := dispatch_of_handler config.driven hrow hhome.symm hhdl hfence
  by_cases hlists : call.request.operation ∈ resource.operations
  · refine ⟨?_, fun hnot => absurd hlists hnot⟩
    split_ifs at hdisp with hhand hquery
    · have hname : call.request.operation = "handover" := of_decide_eq_true hhand
      refine iff_of_false ?_ fun hboth => hboth.2.1 hname
      cases hchk : initiateChecks config.ctx call resource with
      | error => simp [Gateway.operate, hown, hfree, hdisp, hchk]
      | ok =>
        have htask := hchk
        simp only [initiateChecks, bind_eq_ok, Except.ok.injEq] at htask
        obtain ⟨target, -, deadline, -, -, -, rfl⟩ := htask
        simp [Gateway.operate, hown, hfree, hdisp, hchk]
    · simp [Gateway.operate, hown, hfree, hdisp, hquery]
    · have hname : call.request.operation ≠ "handover" := by simpa [Call.handover] using hhand
      simp only [Bool.not_eq_true] at hquery
      obtain ⟨live, hsrv, hlive⟩ : ∃ live, g.server = .ok live ∧ call.request.operation ∈ live := by
        cases hsrv : g.server <;> simp [hsrv, Except.toOption] at hlist
        exact ⟨_, rfl, hlist⟩
      obtain ⟨first, hvalid⟩ := requireTool_of_listed hsrv hlive hal
      obtain ⟨second, hexec⟩ := requireTool_of_listed (g := ⟨g.node, g.cached, first, .ok live⟩) rfl hlive hal
      obtain ⟨record, s', hclm⟩ := claim_of_handler clock hac hfree hrow (by simp [mayOperate, hquery, hhdl]) hfence hdl
      rw [← href, hhome] at hvalid hexec
      refine iff_of_true ?_ ⟨hlists, hname, hquery⟩
      simp [Gateway.operate, hown, hfree, hdisp, Gateway.drive, Gateway.validate, hvalid, hobject, failIf, hclm,
        Gateway.execute, hexec, hsrv]
  · rw [if_pos hlists] at hdisp
    have hreply : (g.operate config call clock).1 = .failed (Core.throws .unsupportedDelivery
        "The resource does not declare this operation.") := by
      simp only [Gateway.operate, hown, hfree, hdisp]
    simp [hreply, hlists]

end Runs

namespace Scenario

def config : Config where
  ctx := Resources.Scenario.context "gateway"
  driven := rfl
  name := "search"

/-- The endpoint calls the tool `find`. -/
def call : Call where
  actor := "gateway"
  ref := config.ref
  request :=
    { idempotencyKey := "1", retryUntil := Resources.Scenario.deadline, operationId := "1", operation := "find" }

end Scenario

open Scenario in
/-- A tool that was listed at the first start is called after a restart with the server down. -/
theorem tool_called_iff_restarted : ∃ h g, Run (gatewayStep config) {} h g ∧
    Submits config g call Resources.Scenario.clock ∧
    (g.operate config call Resources.Scenario.clock).1 = .called "find" (.object []) := by
  obtain ⟨h, g, hrun, hsubmits, hlist⟩ := exists_run (gatewayStep config) {}
    [.serves (.ok ["find"]), .start, .serves (.error "down"), .start, .serves (.ok ["find"])]
    (fun h g => Submits config g call Resources.Scenario.clock ∧ "find" ∈ (firstListed h).getD []) (by decide +kernel)
  exact ⟨h, g, hrun, hsubmits, (tool_called_iff hrun hsubmits).1.mpr ⟨hlist, by decide, rfl⟩⟩

open Scenario in
/-- The resource is registered while the server is down: a tool that it lists later is never called. -/
theorem tool_refused_unsupported : ∃ h g, Run (gatewayStep config) {} h g ∧
    Submits config g call Resources.Scenario.clock ∧
    (g.operate config call Resources.Scenario.clock).1 = .failed (Core.throws .unsupportedDelivery
      "The resource does not declare this operation.") :=
  exists_run _ _ [.start, .serves (.ok ["find"]), .start] _ (by decide +kernel)

end Onlyne.Mcp
