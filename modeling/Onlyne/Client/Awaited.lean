import Onlyne.Client.Types

/-!
# Client: awaited replies

The registry of `awaited.ts`: the awaits that are live in this process, and the holds a reply that was returned
as a tool result keeps on its body until the host confirms its consumption.

A promise is named by a number, and the registry keeps the entry each promise was resolved with: the first
resolution of a promise is the one that counts.
-/

namespace Onlyne.Client

open Foundation
open Messages (MessageRef ThreadRef Entry)

structure Waiter where
  token : Nat
  original : MessageRef
  expectedAuthor : NodeId
  -- The context this await consumes its reply in; absent for a generic caller.
  localContext : Option String
  -- The promises of the waiters it replaced, which it settles too.
  chained : List Nat
  deriving DecidableEq, Repr

structure AwaitedReplies where
  waiters : Table MessageRef Waiter := ∅
  held : List ContextSlot := []
  answers : Table Nat Entry := ∅
  -- The name of the next promise.
  next : Nat := 0

namespace AwaitedReplies

variable (registry : AwaitedReplies)

/-- The waiter of a record.  It stands in for the one it replaces. -/
def waiterOf (record : StoredOutbound) : Waiter where
  token := registry.next
  original := record.slot
  expectedAuthor := record.expectedAuthor
  localContext := record.localContext
  chained := ((registry.waiters.get record.slot).map fun previous => previous.token :: previous.chained).getD []

def register (record : StoredOutbound) : AwaitedReplies :=
  { registry with
    waiters := registry.waiters.put record.slot (registry.waiterOf record)
    next := registry.next + 1 }

/-- An await ends when its caller leaves; a waiter that was replaced stays chained to the newer one. -/
def release (waiter : Waiter) : AwaitedReplies :=
  if registry.waiters.get waiter.original = some waiter then
    { registry with waiters := registry.waiters.delete waiter.original }
  else registry

def resolve (entry : Entry) (answers : Table Nat Entry) (token : Nat) : Table Nat Entry :=
  if (answers.get token).isSome then answers else answers.put token entry

end AwaitedReplies

def Waiter.answeredBy (waiter : Waiter) (entry : Entry) : Bool :=
  waiter.expectedAuthor = entry.authenticatedAuthor && isReply waiter.original entry

namespace AwaitedReplies

variable (registry : AwaitedReplies)

/-- Release every live await whose original the entry answers. -/
def settle (entry : Entry) : AwaitedReplies :=
  let answered := (registry.waiters.rows.map Prod.snd).filter fun waiter => waiter.answeredBy entry
  { registry with
    answers := (answered.flatMap fun waiter => waiter.token :: waiter.chained).foldl (resolve entry)
      registry.answers }

/-- The entry answers an await that owns its body here: a waiter still running, or a hold. -/
def waiting (entry : Entry) (context : Option String) : Bool :=
  (registry.waiters.rows.any fun row =>
    row.2.answeredBy entry && context.all fun context => row.2.localContext = some context) ||
  registry.held.any fun slot => slot.threadRef = entry.threadRef && slot.seq = entry.seq &&
    context.all fun context => slot.context = context

/-- Hold the body of an entry in one context until its consumption is confirmed. -/
def hold (entry : Entry) (context : String) : AwaitedReplies :=
  { registry with held := registry.held.insert (contextSlot context entry) }

def releaseContext (entry : Entry) (context : String) : AwaitedReplies :=
  { registry with held := registry.held.filter fun slot => slot ≠ contextSlot context entry }

def forget (entry : Entry) : AwaitedReplies :=
  { registry with
    held := registry.held.filter fun slot => !(slot.threadRef = entry.threadRef && slot.seq = entry.seq) }

end AwaitedReplies

end Onlyne.Client
