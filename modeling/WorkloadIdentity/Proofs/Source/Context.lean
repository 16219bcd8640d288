import WorkloadIdentity.Proofs.Config.Principals
import WorkloadIdentity.Proofs.Retrieval.Consulting
import WorkloadIdentity.Proofs.Retrieval.Overflow
import WorkloadIdentity.Proofs.Source.Executable

/-!
# What a command is told

A command finds the environment of its caller with the configuration over it. Audience, type of the
subject token and the ban on questions are always written over what the caller has. The account and
the output file are written only if the configuration has them; if it has not, what the caller has
stays in place, so a variable that the caller already defines speaks of something else.
-/

set_option autoImplicit false

namespace WorkloadIdentity.Context

open Executable (Kept kept_iff)
open Journey (consultation retrieve_events)

def audienceVariable : String := "GOOGLE_EXTERNAL_ACCOUNT_AUDIENCE"

def typeVariable : String := "GOOGLE_EXTERNAL_ACCOUNT_TOKEN_TYPE"

def interactiveVariable : String := "GOOGLE_EXTERNAL_ACCOUNT_INTERACTIVE"

def accountVariable : String := "GOOGLE_EXTERNAL_ACCOUNT_IMPERSONATED_EMAIL"

def outputVariable : String := "GOOGLE_EXTERNAL_ACCOUNT_OUTPUT_FILE"

def told : List String :=
  [audienceVariable, typeVariable, interactiveVariable, accountVariable, outputVariable]

/-- The variable is defined exactly if there is a value, and has that value. -/
def Defines (child : Environment) (name : String) (value : Option String) : Prop :=
  child.get? name = value.map Utf8.ofString

/-- A value is written over what the caller has, which stays if there is none. -/
def Overlays (parent child : Environment) (name : String) (value : Option String) : Prop :=
  child.get? name = (value.map Utf8.ofString <|> parent.get? name)

def account (config : Configuration) : Option String :=
  config.impersonation.bind fun i => Impersonation.principal? i.url

structure Told (config : Configuration) (source : ExecutableSource) (parent child : Environment) :
    Prop where
  audience : Defines child audienceVariable (some config.audience)
  subjectTokenType : Defines child typeVariable (some config.subjectTokenType)
  interactive : Defines child interactiveVariable (some "0")
  account : Overlays parent child accountVariable (account config)
  outputFile : Overlays parent child outputVariable source.outputFile
  others : ∀ name, name ∉ told → child.get? name = parent.get? name

theorem get?_setText (env : Environment) (name other value : String) :
    (env.setText other value).get? name =
      if name = other then some (Utf8.ofString value) else env.get? name :=
  env.get?_set name other _

theorem get?_setOptional (env : Environment) (name other : String) (value : Option String) :
    (ExecutableSource.setOptional env other value).get? name =
      if name = other then (value.map Utf8.ofString <|> env.get? name) else env.get? name := by
  cases value with
  | none => simp [ExecutableSource.setOptional]
  | some value => exact get?_setText env name other value

theorem child_get? (source : ExecutableSource) (context : ExecutableSource.Context)
    (env : Environment) (name : String) : (source.childEnvironment context env).get? name =
      if name = outputVariable then (source.outputFile.map Utf8.ofString <|> env.get? name)
      else if name = accountVariable then (context.principal.map Utf8.ofString <|> env.get? name)
      else if name = interactiveVariable then some (Utf8.ofString "0")
      else if name = typeVariable then some (Utf8.ofString context.subjectTokenType)
      else if name = audienceVariable then some (Utf8.ofString context.audience)
      else env.get? name := by
  show (ExecutableSource.setOptional (ExecutableSource.setOptional
    (((env.setText audienceVariable context.audience).setText typeVariable
      context.subjectTokenType).setText interactiveVariable "0") accountVariable context.principal)
    outputVariable source.outputFile).get? name = _
  simp only [get?_setOptional, get?_setText]
  by_cases output : name = outputVariable
  · subst output
    rfl
  by_cases account : name = accountVariable
  · subst account
    rfl
  simp only [if_neg output, if_neg account]

theorem invocation_environment (source : ExecutableSource) (context : ExecutableSource.Context)
    (env : Environment) :
    (source.invocation context env).environment = source.childEnvironment context env := by
  unfold ExecutableSource.invocation
  split <;> rfl

/-- Without a value the variable is as the configuration has it only if the caller has none. -/
theorem defines_iff {parent child : Environment} {name : String} {value : Option String}
    (h : Overlays parent child name value) :
    Defines child name value ↔ (value = none → parent.get? name = none) := by
  unfold Defines
  rw [h]
  cases value with
  | none => simp
  | some value => simp

theorem child_told {config : Configuration} {source : ExecutableSource}
    (named : config.impersonation.map (·.principal) = account config) (parent : Environment) :
    Told config source parent (source.childEnvironment config.executableContext parent) := by
  constructor
  · exact child_get? source _ parent audienceVariable
  · exact child_get? source _ parent typeVariable
  · exact child_get? source _ parent interactiveVariable
  · rw [Overlays, ← named]
    exact child_get? source _ parent accountVariable
  · exact child_get? source _ parent outputVariable
  · intro name other
    simp only [told, List.mem_cons, List.not_mem_nil, or_false, not_or] at other
    rw [child_get?]
    simp [other]

theorem account_principal {world : World} {origin : Session.Origin} {config : Configuration}
    (built : Session.configure world origin = .ok config) :
    config.impersonation.map (·.principal) = account config := by
  have named := Principals.built_principal built
  unfold account
  rcases hi : config.impersonation with _ | i
  · rfl
  · exact (named i hi).symm

def commandsOf (events : List Event) : List Invocation :=
  events.filterMap fun
    | .command i => some i
    | _ => none

theorem commandsOf_append (events more : List Event) :
    commandsOf (events ++ more) = commandsOf events ++ commandsOf more := List.filterMap_append

theorem commandsOf_requests (sent : List Request) : commandsOf (sent.map .request) = [] := by
  rw [commandsOf, List.filterMap_eq_nil_iff]
  intro event among
  obtain ⟨request, -, rfl⟩ := List.mem_map.mp among
  rfl

/-- A retrieval runs what its source is consulted by, if that is a command. -/
theorem retrieve_commands (c : Credentials) : c.retrieve.2.world.commands =
    c.world.commands ++ commandsOf (consultation c.config c.world) := by
  obtain ⟨sent, logged⟩ := retrieve_events c.config c.world
  have same : c.retrieve.2.world = (c.config.retrieve c.world).2 := by
    unfold Credentials.retrieve
    rcases c.config.retrieve c.world with ⟨(e | _) | token, w⟩ <;> rfl
  show commandsOf c.retrieve.2.world.events = commandsOf c.world.events ++ _
  rw [same, logged, commandsOf_append, commandsOf_append, commandsOf_requests, List.append_nil]

theorem refresh_commands (config : Configuration) (w : World) :
    ((Credentials.new config w).call .refresh).2.world.commands =
      w.commands ++ commandsOf (consultation config w) := by
  rw [Journey.refresh_retrieves]
  exact retrieve_commands (.new config w)

/-- Permission is given, and no answer in the output file stands in for the command. -/
def Due (source : ExecutableSource) (w : World) : Prop :=
  w.environment.text? "GOOGLE_EXTERNAL_ACCOUNT_ALLOW_EXECUTABLES" = some "1" ∧
    ∀ t, ¬ Kept source w t

theorem due_iff {source : ExecutableSource} {w : World} : Due source w ↔
    (ExecutableSource.isAllowed w.environment && (source.kept? w).isNone) = true := by
  simp only [Due, ← kept_iff, ExecutableSource.isAllowed, ExecutableSource.permissionVariable,
    Bool.and_eq_true, beq_iff_eq, Option.isNone_iff_eq_none, Option.eq_none_iff_forall_ne_some]

theorem consulted {config : Configuration} {source : ExecutableSource} {w : World}
    (kind : config.source = .executable source) : commandsOf (consultation config w) =
      if ExecutableSource.isAllowed w.environment && (source.kept? w).isNone then
        [source.invocation config.executableContext w.environment]
      else [] := by
  simp only [consultation, kind]
  split <;> rfl

/-- A call runs a command exactly if it goes for a token, that is permitted and nothing stands in for
the command. Audience, type and the ban on questions are those of the configuration, and all other
variables but two those of the caller. These two are as the configuration has them exactly if it has
a value for them or the caller has none. -/
theorem command_sees_context {world : World} {origin : Session.Origin} {c : Credentials}
    {source : ExecutableSource} (built : Session.configure world origin = .ok c.config)
    (kind : c.config.source = .executable source) (call : Call) :
    ∃ ran : Option Invocation, (c.call call).2.world.commands = c.world.commands ++ ran.toList ∧
      (ran.isSome ↔ c.look call = .stale c.cache.generation ∧ Due source c.world) ∧
      ∀ i ∈ ran, Told c.config source c.world.environment i.environment ∧
        (Defines i.environment accountVariable (account c.config) ↔
          (c.config.impersonation = none → c.world.environment.get? accountVariable = none)) ∧
        (Defines i.environment outputVariable source.outputFile ↔
          (source.outputFile = none → c.world.environment.get? outputVariable = none)) := by
  obtain ⟨token, valid, called⟩ | ⟨stale, called⟩ := Overflow.call_cases c call
  · refine ⟨none, ?_, ?_, nofun⟩
    · rw [called]
      exact (List.append_nil _).symm
    · simp [valid]
  have ran := retrieve_commands c
  rw [consulted kind] at ran
  rw [called, stale, due_iff]
  split at ran
  · rename_i due
    refine ⟨some _, ran, by simp [due], ?_⟩
    rintro _ ⟨⟩
    have named := account_principal built
    have told : Told c.config source c.world.environment _ :=
      child_told named c.world.environment
    rw [invocation_environment]
    refine ⟨told, (defines_iff told.account).trans ?_, defines_iff told.outputFile⟩
    rw [← named, Option.map_eq_none_iff]
  · rename_i idle
    exact ⟨none, ran, by simp [idle], nofun⟩

def document (source : List (String × Json)) (impersonationUrl : Json) : Json :=
  .array [.string "//iam/pool", .string "urn:jwt", .string "https://sts/token", .null,
    .object [("executable", .object (("command", .string "answer") :: source))], impersonationUrl,
    .null, .null, .null, .null, .null]

def configured (source : List (String × Json)) (outputFile : Option String)
    (impersonation : Option Impersonation) : Configuration :=
  ⟨"//iam/pool", "urn:jwt", "https://sts/token", none, none, none, [defaultScope], impersonation,
    .executable ⟨"answer", none, outputFile⟩,
    some (.object [("executable", .object (("command", .string "answer") :: source))]), none⟩

/-- A caller that was itself started for an account, with an output file. -/
def started : World :=
  { Executable.answerable 0 0 with
    environment := ((Environment.empty.setText "GOOGLE_EXTERNAL_ACCOUNT_ALLOW_EXECUTABLES"
      "1").setText accountVariable "inherited@project").setText outputVariable "inherited.json"
    files := .empty }

def sa : Impersonation := ⟨"https://iam/sa@project:generateAccessToken", "sa@project", none⟩

def impersonating : Configuration :=
  configured [("output_file", .string "own.json")] (some "own.json") (some sa)

def bare : Configuration := configured [] none none

theorem endpoint_fit : Configuration.checkEndpoint "//iam/pool" "https://sts/token" = .ok () := by
  decide +kernel

theorem impersonating_built : Session.configure started (.document
    (document [("output_file", .string "own.json")] (.string sa.url)) {}) = .ok impersonating := by
  refine Configuration.ofDocument_ok.mpr
    ⟨endpoint_fit, some sa, .executable ⟨"answer", none, some "own.json"⟩, ?_, ?_, rfl⟩
  · decide +kernel
  · decide +kernel

theorem bare_built : Session.configure started (.document (document [] .null) {}) = .ok bare := by
  refine Configuration.ofDocument_ok.mpr
    ⟨endpoint_fit, none, .executable ⟨"answer", none, none⟩, rfl, ?_, rfl⟩
  decide +kernel

theorem command_sees_context_impersonating : ∃ i,
    ((Credentials.new impersonating started).call .refresh).2.world.commands = [i] ∧
    Defines i.environment accountVariable (some "sa@project") ∧
    Defines i.environment outputVariable (some "own.json") := by
  obtain ⟨ran, logged, runs, seen⟩ := command_sees_context (c := .new impersonating started)
    impersonating_built rfl .refresh
  have due : Due ⟨"answer", none, some "own.json"⟩ started := due_iff.mpr (by decide +kernel)
  obtain ⟨i, rfl⟩ := Option.isSome_iff_exists.mp (runs.mpr ⟨rfl, due⟩)
  obtain ⟨-, account, output⟩ := seen i rfl
  have named : Context.account impersonating = some "sa@project" :=
    (account_principal impersonating_built).symm
  exact ⟨i, logged, named ▸ account.mpr nofun, output.mpr nofun⟩

/-- The configuration has neither an account nor an output file, and the command is told of both. -/
theorem inherited_context :
    Session.configure started (.document (document [] .null) {}) = .ok bare ∧ ∃ i,
    ((Credentials.new bare started).call .refresh).2.world.commands = [i] ∧
    ¬ Defines i.environment accountVariable (account bare) ∧
    ¬ Defines i.environment outputVariable none := by
  have due : Due ⟨"answer", none, none⟩ started := due_iff.mpr (by decide +kernel)
  have told : Told bare ⟨"answer", none, none⟩ started.environment
      (ExecutableSource.childEnvironment ⟨"answer", none, none⟩ bare.executableContext
        started.environment) := child_told rfl _
  have account : started.environment.get? accountVariable =
      some (Utf8.ofString "inherited@project") := by
    simp only [started, get?_setText, if_neg (by decide : accountVariable ≠ outputVariable), if_true]
  have output : started.environment.get? outputVariable =
      some (Utf8.ofString "inherited.json") := by
    simp only [started, get?_setText, if_true]
  refine ⟨bare_built, (⟨"answer", none, none⟩ : ExecutableSource).invocation
    bare.executableContext started.environment, ?_, ?_, ?_⟩
  · have fresh : started.commands = [] := rfl
    rw [refresh_commands, consulted rfl, if_pos (due_iff.mp due), fresh, List.nil_append]
  · rw [invocation_environment, defines_iff told.account, account]
    nofun
  · rw [invocation_environment, defines_iff told.outputFile, output]
    nofun

end WorkloadIdentity.Context
