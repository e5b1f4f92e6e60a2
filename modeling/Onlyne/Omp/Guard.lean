import Onlyne.Messages.Types

/-!
# Host: what a subagent may read

`ActionGuard` of `guard.ts` and the slices of `urls.ts`.  A subagent is tied to threads and messages by the records
that the context registry holds of it on this node.  Threads are compared by a rendering of their reference, and so are
messages in the documents; a refusal is named by the key of its text.
-/

namespace Onlyne.Omp

open List

open Messages (ThreadRef MessageRef)

/-- What the registry holds of a context, as far as it gives a right. -/
structure ContextRecord where
  nodeId : NodeId
  agentId : Option String := none
  threadRef : Option ThreadRef := none
  source : Option MessageRef := none
  deriving DecidableEq, Repr

def threadKey (ref : ThreadRef) : String := ref.owner ++ "/" ++ ref.id

def refKey (ref : MessageRef) : String := ref.sender ++ "/" ++ ref.id

/-! ## The action guard -/

inductive ReadScope where
  | directory
  | neighbors
  | threads
  | inbox
  | messages
  | message
  | evidence
  deriving DecidableEq, Repr

inductive Action where
  | domain
  | send
  | thread
  | resource
  | resources
  | read (scope : ReadScope) (thread : Option ThreadRef) (message : Option MessageRef)
  deriving DecidableEq, Repr

section

variable (node : NodeId) (records : List ContextRecord) (caller : Caller) (agent : String) (contexts : List ContextRecord)

def authorized : List ContextRecord :=
  contexts.filter fun record => record.nodeId = node && record.agentId = some agent && record.threadRef.isSome

def require (condition : Bool) (key : String) : Except Failure Unit :=
  if condition then .ok () else .error (onlyneError .forbidden key)

/-- `assert`; `contexts` is what the registry answers. -/
def guardAssert (readOnly : Bool) (agent : String) (contexts : Except String (List ContextRecord)) :
    Action → Except Failure Unit
  | .read scope thread message =>
    if !readOnly then .ok ()
    else if scope = .directory ∨ scope = .neighbors ∨ scope = .threads ∨ scope = .inbox then
      .error (onlyneError .forbidden "error.guard_node_listing")
    else
      match contexts with
      | .error _ => .error (onlyneError .unavailable "error.registry_unreadable")
      | .ok contexts =>
        let records := authorized node agent contexts
        let tied := message.any fun ref => records.any fun record => record.source = some ref
        if scope = .evidence then require tied "error.guard_evidence"
        else if scope = .message ∧ thread = none ∧ message.isSome then require tied "error.guard_message"
        else
          match thread with
          | none => .error (onlyneError .forbidden "error.guard_thread_required")
          | some ref => require (records.any fun record => record.threadRef.any fun named => threadKey named = threadKey ref)
              "error.guard_no_slice"
  | .resources => require (!readOnly) "error.resources_main_only"
  | _ => require (!readOnly) "error.guard_write"

/-! ## Documents -/

structure Caller where
  agentId : Option String
  main : Bool

/-- Every record of this node for the main session, its own records otherwise. -/
def scopedRecords : List ContextRecord :=
  let records := contexts.filter fun record => record.nodeId = node
  if caller.main then records
  else
    match caller.agentId with
    | none => []
    | some agent => records.filter fun record => record.agentId = some agent

def allowedThreads : List String :=
  records.filterMap fun record => record.threadRef.map threadKey

def sourceRefs : List String :=
  records.filterMap fun record => record.source.map refKey

/-- The items of a listing whose thread the caller may see: `visibleInbox`, `visibleThreads` and `joinedThreads`. -/
def visible {α : Type} (node : NodeId) (caller : Caller) (contexts : List ContextRecord) (thread : α → ThreadRef)
    (items : List α) : List α :=
  if caller.main then items
  else items.filter fun item => (allowedThreads (scopedRecords node caller contexts)).contains (threadKey (thread item))

structure HistoryMessage where
  ref : MessageRef
  threadRef : Option ThreadRef := none
  metaThread : Option ThreadRef := none
  deriving DecidableEq, Repr

structure Conversation where
  id : MessageRef
  threadRefs : List ThreadRef := []
  messages : List HistoryMessage := []
  deriving DecidableEq, Repr

def messagePermitted (allowed sources : List String) (message : HistoryMessage) : Bool :=
  sources.contains (refKey message.ref) ||
    (message.threadRef.or message.metaThread).any fun thread => allowed.contains (threadKey thread)

def conversationPermitted (allowed sources : List String) (conversation : Conversation) : Bool :=
  sources.contains (refKey conversation.id) ||
    conversation.threadRefs.any (fun thread => allowed.contains (threadKey thread)) ||
    conversation.messages.any (messagePermitted allowed sources)

/-- `visibleConversations`, and with one conversation `authorizeConversation`. -/
def visibleConversations (conversations : List Conversation) : List Conversation :=
  if caller.main then conversations
  else
    let records := scopedRecords node caller contexts
    conversations.filter (conversationPermitted (allowedThreads records) (sourceRefs records))

end

/-! ## What the records entitle to -/

/-- A subagent of this node, and the registry it is looked up in. -/
structure Subagent where
  node : NodeId
  agent : String
  contexts : List ContextRecord

namespace Subagent

variable (s : Subagent) {record : ContextRecord} {text : String}

def Holds (record : ContextRecord) : Prop :=
  record ∈ s.contexts ∧ record.nodeId = s.node ∧ record.agentId = some s.agent

def Named (ref : ThreadRef) : Prop := ∃ record, s.Holds record ∧ record.threadRef = some ref

def Source (ref : MessageRef) : Prop := ∃ record, s.Holds record ∧ record.source = some ref

def Entitled (action : Action) : Prop :=
  ∃ scope thread message, action = .read scope thread message ∧
    ((∃ ref, thread = some ref ∧ s.Named ref) ∨ ∃ ref, message = some ref ∧ s.Source ref)

/-- The conversation contains a message of the subagent, or one of a thread of it. -/
def Tied (conversation : Conversation) : Prop :=
  s.Source conversation.id ∨ (∃ ref ∈ conversation.threadRefs, s.Named ref) ∨
    ∃ message ∈ conversation.messages, s.Source message.ref ∨
      ∃ ref, message.threadRef.or message.metaThread = some ref ∧ s.Named ref

/-- Everything the guard lets through and every document that is served is one the subagent is entitled to. -/
structure Confined : Prop where
  actions : ∀ action, guardAssert s.node true s.agent (.ok s.contexts) action = .ok () → s.Entitled action
  documents : ∀ (α : Type) (thread : α → ThreadRef) items,
    ∀ item ∈ visible s.node ⟨some s.agent, false⟩ s.contexts thread items, s.Named (thread item)
  conversations : ∀ conversations,
    ∀ conversation ∈ visibleConversations s.node ⟨some s.agent, false⟩ s.contexts conversations, s.Tied conversation

/-- A reference that is rendered like one of the subagent's records is one of theirs. -/
structure Unambiguous : Prop where
  threads : ∀ ref named, s.Named named → threadKey ref = threadKey named → s.Named ref
  sources : ∀ ref source, s.Source source → refKey ref = refKey source → s.Source ref

variable {s} {ref : ThreadRef}

theorem mem_scopedRecords : record ∈ scopedRecords s.node ⟨some s.agent, false⟩ s.contexts ↔ s.Holds record := by
  simp only [scopedRecords, Bool.false_eq_true, if_false, mem_filter, decide_eq_true_eq, and_assoc, Holds]

theorem mem_allowedThreads : text ∈ allowedThreads (scopedRecords s.node ⟨some s.agent, false⟩ s.contexts) ↔
      ∃ ref, s.Named ref ∧ threadKey ref = text := by
  simp only [allowedThreads, mem_filterMap, mem_scopedRecords, Option.map_eq_some_iff, Named]
  grind

theorem mem_sourceRefs : text ∈ sourceRefs (scopedRecords s.node ⟨some s.agent, false⟩ s.contexts) ↔
      ∃ ref, s.Source ref ∧ refKey ref = text := by
  simp only [sourceRefs, mem_filterMap, mem_scopedRecords, Option.map_eq_some_iff, Source]
  grind

theorem mem_authorized : record ∈ authorized s.node s.agent s.contexts ↔ s.Holds record ∧ record.threadRef.isSome := by
  simp only [authorized, mem_filter, Bool.and_eq_true, decide_eq_true_eq, Holds, and_assoc]

theorem source_of_tied {message : Option MessageRef} (h : (message.any fun ref =>
    (authorized s.node s.agent s.contexts).any fun record => record.source = some ref) = true) :
    ∃ ref, message = some ref ∧ s.Source ref := by
  simp only [Option.any_eq_true, any_eq_true, mem_authorized, decide_eq_true_eq] at h
  obtain ⟨ref, hmsg, record, ⟨hhld, -⟩, hsrc⟩ := h
  exact ⟨ref, hmsg, record, hhld, hsrc⟩

theorem any_authorized : ((authorized s.node s.agent s.contexts).any fun record => record.threadRef.any fun named =>
      threadKey named = threadKey ref) = true ↔ ∃ named, s.Named named ∧ threadKey ref = threadKey named := by
  simp only [Option.any_eq_true, any_eq_true, mem_authorized, decide_eq_true_eq, Named]
  grind

theorem require_eq_ok {condition : Bool} {key : String} : require condition key = .ok () ↔ condition = true := by
  unfold require
  split_ifs with h <;> simp [h]

section

variable (h : s.Unambiguous)
include h

theorem Unambiguous.entitled {action : Action}
    (hlets : guardAssert s.node true s.agent (.ok s.contexts) action = .ok ()) : s.Entitled action := by
  cases action with
  | read scope thread message =>
    simp only [guardAssert, Bool.not_true, Bool.false_eq_true, if_false] at hlets
    refine ⟨scope, thread, message, rfl, ?_⟩
    split_ifs at hlets
    · exact .inr (source_of_tied (require_eq_ok.mp hlets))
    · exact .inr (source_of_tied (require_eq_ok.mp hlets))
    · cases thread with
      | none => cases hlets
      | some ref =>
        obtain ⟨named, hnamed, hkey⟩ := any_authorized.mp (require_eq_ok.mp hlets)
        exact .inl ⟨ref, rfl, h.threads ref named hnamed hkey⟩
  | _ => cases hlets

theorem Unambiguous.named
    (hmem : threadKey ref ∈ allowedThreads (scopedRecords s.node ⟨some s.agent, false⟩ s.contexts)) : s.Named ref := by
  obtain ⟨named, hnamed, hkey⟩ := mem_allowedThreads.mp hmem
  exact h.threads ref named hnamed hkey.symm

theorem Unambiguous.source {ref : MessageRef}
    (hmem : refKey ref ∈ sourceRefs (scopedRecords s.node ⟨some s.agent, false⟩ s.contexts)) : s.Source ref := by
  obtain ⟨source, hsrc, hkey⟩ := mem_sourceRefs.mp hmem
  exact h.sources ref source hsrc hkey.symm

theorem Unambiguous.tied {conversations : List Conversation} {conversation : Conversation}
    (hmem : conversation ∈ visibleConversations s.node ⟨some s.agent, false⟩ s.contexts conversations) :
    s.Tied conversation := by
  simp only [visibleConversations, Bool.false_eq_true, if_false, mem_filter, conversationPermitted,
    messagePermitted, Bool.or_eq_true, contains_iff_mem, any_eq_true, Option.any_eq_true] at hmem
  rcases hmem.2 with (hid | ⟨ref, hmem, hkey⟩) | ⟨message, hmem, hkey | ⟨ref, href, hkey⟩⟩
  · exact .inl (h.source hid)
  · exact .inr (.inl ⟨ref, hmem, h.named hkey⟩)
  · exact .inr (.inr ⟨message, hmem, .inl (h.source hkey)⟩)
  · exact .inr (.inr ⟨message, hmem, .inr ⟨ref, href, h.named hkey⟩⟩)

end

end Subagent

/-- For every registry and subagent, what the guard lets through and what is served is confined to the threads and
messages of the subagent's records exactly when no other reference is rendered like one of theirs. -/
theorem confined_iff (s : Subagent) : s.Confined ↔ s.Unambiguous := by
  constructor
  · intro h
    constructor
    · intro ref named hnamed hkey
      have hlets : guardAssert s.node true s.agent (.ok s.contexts) (.read .messages (some ref) none) = .ok () := by
        exact Subagent.require_eq_ok.mpr (Subagent.any_authorized.mpr ⟨named, hnamed, hkey⟩)
      obtain ⟨_, _, _, haction, ⟨_, href, hthis⟩ | ⟨_, href, -⟩⟩ := h.actions _ hlets
      · cases haction
        cases href
        exact hthis
      · cases haction
        cases href
    · intro ref source hsrc hkey
      have hserved : ⟨ref, [], []⟩ ∈ visibleConversations s.node ⟨some s.agent, false⟩ s.contexts [⟨ref, [], []⟩] := by
        simp only [visibleConversations, Bool.false_eq_true, if_false, mem_filter, mem_singleton, true_and,
          conversationPermitted, Bool.or_eq_true, contains_iff_mem]
        exact .inl (.inl (Subagent.mem_sourceRefs.mpr ⟨source, hsrc, hkey.symm⟩))
      rcases h.conversations _ _ hserved with hthis | ⟨_, hmem, -⟩ | ⟨_, hmem, -⟩
      · exact hthis
      · cases hmem
      · cases hmem
  · intro h
    refine ⟨fun action => h.entitled, fun α thread items item hmem => ?_, fun _ _ => h.tied⟩
    simp only [visible, Bool.false_eq_true, if_false, mem_filter, contains_iff_mem] at hmem
    exact h.named hmem.2

/-- The owner `a/b` with the thread `c` is taken for the owner `a` with the thread `b/c`. -/
theorem guard_reads_other_thread : let s : Subagent := ⟨"n", "s", [⟨"n", some "s", some ⟨"a/b", "c"⟩, none⟩]⟩
    guardAssert "n" true "s" (.ok s.contexts) (.read .messages (some ⟨"a", "b/c"⟩) none) = .ok () ∧
      ⟨"a", "b/c"⟩ ∈ visible "n" ⟨some "s", false⟩ s.contexts id [⟨"a", "b/c"⟩] ∧ ¬ s.Named ⟨"a", "b/c"⟩ := by
  refine ⟨by decide, by decide, ?_⟩
  rintro ⟨record, ⟨hmem, -, -⟩, hthr⟩
  rw [mem_singleton.mp hmem] at hthr
  exact absurd hthr (by decide)

end Onlyne.Omp
