import BirthHub.Data.Schema
import BirthHub.Workflow.Runner

/-!
# What the editor may submit

`stepSchema` and `workflowCanvasSchema` of
`packages/workflows-core/src/schemas/step.schema.ts`: one schema for each type of step,
and the canvas they make up. Whether a text is a URL is decided by a parameter.
-/

namespace Workflow

open Data

/-- `interpolationGuard`. -/
def interpolationGuard (value : String) : Bool := !includes value "$\x7b"

def interpolationString : JsonSchema :=
  .string fun value => 1 ≤ unitLength value && interpolationGuard value

def interpolationUrlString (isUrl : String → Bool) : JsonSchema :=
  .string fun value => isUrl value && interpolationGuard value

/-- The object that all step schemas share, around the shape of the type's `config`; only
the trigger schemas have the field `isTrigger`. -/
def stepObject (type : StepType) (config : List (String × JsonSchema)) (input : Json) :
    Option CanvasStep :=
  let shape : List (String × JsonSchema) :=
    [("config", .strictObject config)] ++
    (if type.isTrigger then [("isTrigger", .default .isTrue (.bool true))] else []) ++
    [("key", .stringMin 1), ("name", .stringMin 1), ("type", .enum [type.text])]
  match JsonSchema.strictObject shape (some input) with
  | some (some parsed) =>
      match parsed.member "config", parsed.member "key", parsed.member "name" with
      | some config, some (.string key), some (.string name) =>
          some {
            key
            name
            type
            config
            isTrigger := if type.isTrigger then some true else none }
      | _, _, _ => none
  | _ => none

def triggerWebhookSchema : Json → Option CanvasStep :=
  stepObject .TRIGGER_WEBHOOK [
    ("method", .default (.enum ["POST"]) (.string "POST")),
    ("path", .stringMin 1)]

def triggerCronSchema : Json → Option CanvasStep :=
  stepObject .TRIGGER_CRON [
    ("cron", .stringMin 5),
    ("timezone", .default (.stringMin 1) (.string "UTC"))]

def triggerEventSchema : Json → Option CanvasStep :=
  stepObject .TRIGGER_EVENT [("topic", .stringMin 1)]

def delaySchema : Json → Option CanvasStep :=
  stepObject .DELAY [("duration_ms", .int 1)]

def httpRequestSchema (isUrl : String → Bool) : Json → Option CanvasStep :=
  stepObject .HTTP_REQUEST [
    ("auth", .optional (.strictObject [("bearer", .optional interpolationString)])),
    ("body", .optional .unknown),
    ("headers", .default (.record interpolationString) (.object [])),
    ("method", .default (.enum ["DELETE", "GET", "PATCH", "POST", "PUT"]) (.string "GET")),
    ("timeout_ms", .default (.int 1 10000) (.nat 2500)),
    ("url", interpolationUrlString isUrl),
    ("webhookSecret", .optional interpolationString)]

def conditionSchema : Json → Option CanvasStep :=
  stepObject .CONDITION [
    ("operator", .enum ["!=", "<", "<=", "==", ">", ">="]),
    ("path", .stringMin 1),
    ("value", .union [.boolean, .number, .stringMin 0])]

def codeSchema : Json → Option CanvasStep :=
  stepObject .CODE [
    ("timeout_ms", .default (.int 1 1000) (.nat 1000)),
    ("source", .stringMin 1)]

def transformerSchema : Json → Option CanvasStep :=
  stepObject .TRANSFORMER [
    ("filter", .optional (.stringMin 0)),
    ("map", .optional (.record .unknown)),
    ("reduce", .optional (.stringMin 0)),
    ("sourcePath", .optional (.stringMin 0))]

def notificationSchema : Json → Option CanvasStep :=
  stepObject .SEND_NOTIFICATION [
    ("channel", .enum ["email", "inapp"]),
    ("message", interpolationString),
    ("batchKey", .optional (.stringMin 1)),
    ("batchWindowMs", .default (.int 1 60000) (.nat 5000)),
    ("to", interpolationString)]

def agentExecuteSchema : Json → Option CanvasStep :=
  stepObject .AGENT_EXECUTE [
    ("agentId", .stringMin 1),
    ("input", .default (.record .unknown) (.object [])),
    ("onError", .default (.enum ["continue", "stop"]) (.string "stop"))]

def agentHandoffSchema : Json → Option CanvasStep :=
  stepObject .AGENT_HANDOFF [
    ("context", .default (.record .unknown) (.object [])),
    ("correlationId", .optional interpolationString),
    ("sourceAgentId", .stringMin 1),
    ("summary", interpolationString),
    ("targetAgentId", .stringMin 1),
    ("threadId", .optional (.stringMin 1))]

def crmUpsertSchema : Json → Option CanvasStep :=
  stepObject .CRM_UPSERT [
    ("connectorAccountId", .optional (.stringMin 1)),
    ("objectType", .enum ["company", "contact", "deal"]),
    ("operation", .default (.enum ["upsert"]) (.string "upsert")),
    ("payload", .record .unknown),
    ("provider", .default (.enum ["hubspot", "salesforce", "pipedrive"]) (.string "hubspot")),
    ("scope", .optional (.stringMin 1))]

def whatsappSendSchema : Json → Option CanvasStep :=
  stepObject .WHATSAPP_SEND [
    ("connectorAccountId", .optional (.stringMin 1)),
    ("message", interpolationString),
    ("template", .optional interpolationString),
    ("threadId", .optional (.stringMin 1)),
    ("to", interpolationString)]

def calendarEventConfigSchema : List (String × JsonSchema) := [
  ("attendees", .default (.array interpolationString) (.array [])),
  ("calendarId", .optional interpolationString),
  ("connectorAccountId", .optional (.stringMin 1)),
  ("description", .optional interpolationString),
  ("end", interpolationString),
  ("start", interpolationString),
  ("title", interpolationString)]

def googleEventSchema : Json → Option CanvasStep :=
  stepObject .GOOGLE_EVENT calendarEventConfigSchema

def msEventSchema : Json → Option CanvasStep := stepObject .MS_EVENT calendarEventConfigSchema

def aiTextExtractSchema : Json → Option CanvasStep :=
  stepObject .AI_TEXT_EXTRACT [
    ("fields", .array (.stringMin 1) 1),
    ("text", interpolationString)]

/-- The option of `stepSchema` for a value of the discriminator. -/
def stepSchemaOf (isUrl : String → Bool) : StepType → Json → Option CanvasStep
  | .TRIGGER_WEBHOOK => triggerWebhookSchema
  | .TRIGGER_CRON => triggerCronSchema
  | .TRIGGER_EVENT => triggerEventSchema
  | .DELAY => delaySchema
  | .HTTP_REQUEST => httpRequestSchema isUrl
  | .CONDITION => conditionSchema
  | .CODE => codeSchema
  | .TRANSFORMER => transformerSchema
  | .SEND_NOTIFICATION => notificationSchema
  | .AGENT_EXECUTE => agentExecuteSchema
  | .AGENT_HANDOFF => agentHandoffSchema
  | .CRM_UPSERT => crmUpsertSchema
  | .WHATSAPP_SEND => whatsappSendSchema
  | .GOOGLE_EVENT => googleEventSchema
  | .MS_EVENT => msEventSchema
  | .AI_TEXT_EXTRACT => aiTextExtractSchema

def StepType.all : List StepType := [
  .TRIGGER_WEBHOOK, .TRIGGER_CRON, .TRIGGER_EVENT, .HTTP_REQUEST, .CONDITION, .CODE,
  .TRANSFORMER, .SEND_NOTIFICATION, .AGENT_EXECUTE, .AGENT_HANDOFF, .CRM_UPSERT,
  .WHATSAPP_SEND, .GOOGLE_EVENT, .MS_EVENT, .AI_TEXT_EXTRACT, .DELAY]

def StepType.ofText (text : String) : Option StepType := all.find? (·.text == text)

/-- `stepSchema`, a union by the member `type`. -/
def stepSchema (isUrl : String → Bool) (input : Json) : Option CanvasStep :=
  match input.member "type" with
  | some (.string text) => (StepType.ofText text).bind fun type => stepSchemaOf isUrl type input
  | _ => none

def Route.ofText : String → Option Route
  | "ALWAYS" => some .ALWAYS
  | "IF_TRUE" => some .IF_TRUE
  | "IF_FALSE" => some .IF_FALSE
  | "ON_FAILURE" => some .ON_FAILURE
  | "ON_SUCCESS" => some .ON_SUCCESS
  | "FALLBACK" => some .FALLBACK
  | _ => none

def transitionSchema (input : Json) : Option CanvasTransition :=
  let shape : List (String × JsonSchema) := [
    ("route", .default (.enum ["ALWAYS", "IF_TRUE", "IF_FALSE", "ON_FAILURE", "ON_SUCCESS",
      "FALLBACK"]) (.string "ALWAYS")),
    ("source", .stringMin 1),
    ("target", .stringMin 1)]
  match JsonSchema.strictObject shape (some input) with
  | some (some parsed) =>
      match parsed.member "route", parsed.member "source", parsed.member "target" with
      | some (.string route), some (.string source), some (.string target) =>
          (Route.ofText route).map fun route => { source, target, route }
      | _, _, _ => none
  | _ => none

/-- `workflowCanvasSchema`. -/
def workflowCanvasSchema (isUrl : String → Bool) (input : Json) : Option Canvas :=
  match input with
  | .object members =>
      if members.all fun member => member.1 == "steps" || member.1 == "transitions" then
        match members.lookup "steps", (members.lookup "transitions").getD (.array []) with
        | some (.array steps), .array transitions =>
            if steps.isEmpty then none
            else
              match steps.mapM (stepSchema isUrl), transitions.mapM transitionSchema with
              | some steps, some transitions => some { steps, transitions }
              | _, _ => none
        | _, _ => none
      else none
  | _ => none

end Workflow
