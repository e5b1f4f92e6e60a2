import Onlyne.Mounts.Types

/-!
# Mounts: requests

What the operations of the scheduler resource read from their payload, and who may ask for it.
-/

namespace Onlyne.Mounts

open Foundation
open Onlyne.Core (throws field)

def mountsResource : String := "mounts:"

section

variable (config : Option Config) (env : Env) (controller : NodeId) (value : Option Json)

def controllerOf (resourceId : String) : Except Thrown NodeId :=
  if !mountsResource.toList.isPrefixOf resourceId.toList then
    .error (throws .forbidden "This driver only serves the scheduler resource.")
  else
    let controller := String.ofList (resourceId.toList.drop mountsResource.toList.length)
    if !((config.map Config.controllers).getD []).contains controller then
      .error (throws .forbidden "Only a configured mount controller may operate this resource.")
    else .ok controller

def recordOf (what : String) : Except Thrown Json :=
  match value with
  | some (.object fields) => .ok (.object fields)
  | _ => .error (throws .invalidRequest (what ++ " must be an object."))

def textField (container : Json) (name : String) : Except Thrown String :=
  match field container name with
  | some (.string text) =>
    if text = "" then .error (throws .invalidRequest (name ++ " must be a non-empty string."))
    else .ok text
  | _ => .error (throws .invalidRequest (name ++ " must be a non-empty string."))

def parseInterval (record : Json) : Except Thrown Schedule :=
  let refused := Except.error (throws .invalidRequest
    "An interval schedule needs every_ms as an integer of at least 1000.")
  match field record "every_ms" with
  | some (.number text) =>
    match env.integer text with
    | some every => if every < 1000 then refused else .ok (.interval every)
    | none => refused
  | _ => refused

/-- A schedule; the clock is read for a cron and for a one-shot one. -/
def parseSchedule (now : Int) (value : Option Json) : Except Thrown Schedule := do
  let record ← recordOf value "schedule"
  let kind ← textField record "kind"
  if kind = "interval" then parseInterval env record
  else if kind = "cron" then
    let expression ← textField record "expression"
    match ← env.nextCron expression now with
    | none => .error (throws .invalidRequest
        ("The cron expression " ++ expression ++ " has no occurrence in the next five years."))
    | some _ => .ok (.cron expression)
  else if kind = "once" then
    let text ← textField record "at"
    match env.dateParse text with
    | none => .error (throws .invalidRequest "A one-shot schedule needs at as an ISO timestamp.")
    | some instant =>
      if instant < now then
        .error (throws .invalidRequest "A one-shot schedule needs a time in the future.")
      else (iso instant).map .once
  else .error (throws .invalidRequest
    ("The schedule kind " ++ quote kind ++ " is interval, cron or once."))

def parseArguments : Except Thrown (Option Json) :=
  match value with
  | none | some .null => .ok none
  | some (.object fields) => .ok (some (.object fields))
  | some _ => .error (throws .invalidRequest "The tool arguments for a mount are an object.")

def parseAction : Except Thrown Action := do
  let record ← recordOf value "action"
  let kind ← textField record "kind"
  let config := config.getD { controllers := [] }
  if kind = "command" then
    let command ← textField record "command"
    if !config.commands.contains command then
      .error (throws .forbidden
        ("The mount command " ++ command ++ " is not in the configured command allowlist."))
    else .ok (.command command)
  else if kind = "mcp" then
    let server ← textField record "server"
    let tool ← textField record "tool"
    match config.servers.find? fun entry => entry.1 = server with
    | none => .error (throws .invalidRequest ("No configured MCP server is named " ++ server ++ "."))
    | some permitted =>
      -- A scheduled call runs with the authority of the controller that mounts it.
      if !permitted.2.contains controller then
        .error (throws .forbidden
          ("The server " ++ server ++ " does not list " ++ controller ++ " as a controller."))
      else if !config.tools.contains (server, tool) then
        .error (throws .forbidden
          ("The tool " ++ server ++ "/" ++ tool ++ " is not in the configured mount tool allowlist."))
      else
        let arguments ← parseArguments (field record "arguments")
        .ok (.mcp server tool arguments)
  else .error (throws .invalidRequest ("The mount action kind " ++ quote kind ++ " is command or mcp."))

def parseTitle : Except Thrown (Option String) :=
  match value with
  | none | some .null => .ok none
  | some (.string text) =>
    if text.toList.all whiteSpace then
      .error (throws .invalidRequest "title must be a non-empty string when present.")
    else if (textUnits text).length > 200 then
      .error (throws .invalidRequest "title is at most 200 characters.")
    else .ok (some text)
  | some _ => .error (throws .invalidRequest "title must be a non-empty string when present.")

end

def requireTask (tasks : Table TaskId Task) (controller : NodeId) (data : Json) : Except Thrown Task := do
  let id ← textField data "task"
  match tasks.get id with
  | none => .error (throws .notFound ("No mount task is named " ++ id ++ "."))
  | some task =>
    if task.controller ≠ controller then
      .error (throws .notFound ("No mount task is named " ++ id ++ "."))
    else .ok task

end Onlyne.Mounts
