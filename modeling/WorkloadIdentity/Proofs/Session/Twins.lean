import WorkloadIdentity.Proofs.Config.Builders
import WorkloadIdentity.Proofs.Retrieval.Order
import WorkloadIdentity.Session.Basic

/-!
# Sessions of twins

Two credentials that differ in nothing but where their subject tokens come from. One asks a
provider of the application, the other reads a file; as long as both find the same token, what they
send and what they answer cannot be told apart.
-/

set_option autoImplicit false

namespace WorkloadIdentity.Twins

open Builders (settingsOf supplied written)
open Journey (bind_run get_bind file_gives send_run source_gives log_requests)
open Session (Step onWorld)

/-- Worlds with the same answers and clocks. In one the provider has this token `n` times, in the
other the file holds it. -/
structure Alike (token path : String) (n : ℕ) (w w' : World) : Prop where
  network : w.network = w'.network
  answers : w.answers = w'.answers
  now : w.now = w'.now
  ticks : w.ticks = w'.ticks
  provided : ∃ rest, w.provider = List.replicate n (.token token) ++ rest
  kept : w'.files.read? path = some (Utf8.ofString token)

/-- Of what left the credentials, only the requests are compared. -/
structure Paired (token path : String) (n : ℕ) (w w' : World) : Prop
    extends Alike token path n w w' where
  requests : w.requests = w'.requests

variable {token path : String} {n : ℕ} {w w' : World}

theorem paired_fewer {m : ℕ} (h : Paired token path n w w') (fewer : m ≤ n) :
    Paired token path m w w' := by
  obtain ⟨rest, provided⟩ := h.provided
  refine { h with provided := ⟨List.replicate (n - m) (.token token) ++ rest, ?_⟩ }
  rw [provided, ← List.append_assoc, List.replicate_append_replicate, Nat.add_sub_cancel' fewer]

/-- An attempt that cannot tell the worlds apart. -/
def Blind {α : Type} (m : Attempt α) : Prop :=
  ∀ {token path : String} {n : ℕ} {w w' : World}, Paired token path n w w' →
    (m w).1 = (m w').1 ∧ Paired token path n (m w).2 (m w').2

section Laws

variable {α β : Type}

theorem blind_pure (a : α) : Blind (pure a : Attempt α) := fun h => ⟨rfl, h⟩

theorem blind_throw (f : Failure) : Blind (throw f : Attempt α) := fun h => ⟨rfl, h⟩

theorem blind_bind {m : Attempt α} {f : α → Attempt β} (first : Blind m)
    (second : ∀ a, Blind (f a)) : Blind (m >>= f) := by
  intro token path n w w' h
  obtain ⟨result, after⟩ := first h
  rw [bind_run, bind_run]
  rcases hm : m w with ⟨e | a, v⟩ <;> rcases hm' : m w' with ⟨e' | a', v'⟩ <;>
    rw [hm, hm'] at result after
  · cases result
    exact ⟨rfl, after⟩
  · cases result
  · cases result
  · cases result
    exact second a after

theorem blind_ofExcept (x : Except CredentialsError α) : Blind (Attempt.ofExcept x) := by
  cases x with
  | ok a => exact blind_pure a
  | error e => exact blind_throw _

theorem blind_orIncident (incident : Incident) (x : Option α) :
    Blind (Attempt.orIncident incident x) := by
  cases x with
  | none => exact blind_throw _
  | some a => exact blind_pure a

theorem blind_clocks {f : Calendar.Nanoseconds → Calendar.Nanoseconds → Attempt α}
    (h : ∀ now ticks, Blind (f now ticks)) :
    Blind ((get : Attempt World) >>= fun w => f w.now w.ticks) := by
  intro token path n w w' paired
  rw [get_bind, get_bind, paired.now, paired.ticks]
  exact h _ _ paired

theorem answer_paired (request : Request) (h : Paired token path n w w') :
    (w.answer request).1 = (w'.answer request).1 ∧
      Paired token path n (w.answer request).2 (w'.answer request).2 := by
  have logged : ∀ v : World, (v.log (.request request)).requests = v.requests ++ [request] := by
    intro v
    simp [World.log, World.requests]
  have requests := (logged w).trans ((congrArg (· ++ [request]) h.requests).trans (logged w').symm)
  unfold World.answer
  simp only [World.log, h.answers] at requests ⊢
  rcases w'.answers with _ | ⟨answer, rest⟩
  · exact ⟨rfl, ⟨h.network, rfl, h.now, h.ticks, h.provided, h.kept⟩, requests⟩
  · exact ⟨rfl, ⟨h.network, rfl, h.now, h.ticks, h.provided, h.kept⟩, requests⟩

theorem blind_send (request : Request) : Blind (World.send request) := by
  intro token path n w w' h
  obtain ⟨same, after⟩ := answer_paired request h
  rw [send_run, send_run, h.network]
  rcases hw : w.answer request with ⟨answer, v⟩
  rcases hw' : w'.answer request with ⟨answer', v'⟩
  rw [hw, hw'] at same after
  obtain rfl : answer = answer' := same
  rcases w'.network with _ | _
  · cases answer
    · exact ⟨rfl, after⟩
    · exact ⟨rfl, after⟩
  · exact ⟨rfl, h⟩

end Laws

theorem blind_exchange (config : Configuration) (subjectToken : String) :
    Blind (Exchange.exchange config subjectToken) := by
  refine blind_bind (blind_orIncident _ _) fun request => blind_bind (blind_send request)
    fun response => blind_bind (blind_ofExcept _) fun grant => ?_
  refine blind_clocks (f := fun _ ticks => Exchange.exchange.liftExcept (Exchange.tokenOf grant ticks)) ?_
  intro _ ticks
  cases Exchange.tokenOf grant ticks with
  | ok token => exact blind_pure token
  | error failure => exact blind_throw failure

theorem blind_account (i : Impersonation) (scopes : List String) (token : Token) :
    Blind (i.exchange scopes token) :=
  blind_bind (blind_ofExcept _) fun request => blind_bind (blind_send request) fun response =>
    blind_clocks fun now ticks => blind_ofExcept (Impersonation.read response now ticks)

/-- What follows the source is the same for both. -/
theorem blind_exchanges (config : Configuration) (subjectToken : String) :
    Blind (Exchange.exchange config subjectToken >>= fun token =>
      match config.impersonation with
      | none => pure token
      | some impersonation => impersonation.exchange config.scopes token) := by
  refine blind_bind (blind_exchange config subjectToken) fun token => ?_
  rcases config.impersonation with _ | i
  · exact blind_pure token
  · exact blind_account i config.scopes token

theorem provider_gives (h : Paired token path (n + 1) w w') :
    ∃ v, World.callProvider w = (.ok token, v) ∧ Paired token path n v w' := by
  obtain ⟨rest, provided⟩ := h.provided
  have logged := (log_requests .provider w nofun).trans h.requests
  rw [List.replicate_succ, List.cons_append] at provided
  refine ⟨{ w.log .provider with provider := List.replicate n (.token token) ++ rest }, ?_, ?_⟩
  · unfold World.callProvider
    rw [get_bind]
    simp only [World.log, provided]
    rfl
  · exact { h with provided := ⟨rest, rfl⟩, requests := logged }

/-- Credentials of twins with the same cache, the first with `n` tokens of its provider left. -/
structure Twin (config : Configuration) (token path : String) (n : ℕ) (c c' : Credentials) :
    Prop where
  own : c.config = supplied config
  held : c'.config = config
  cache : c.cache = c'.cache
  worlds : Paired token path n c.world c'.world

def Agree {α : Type} (config : Configuration) (token path : String) (n : ℕ)
    (x x' : α × Credentials) : Prop :=
  x.1 = x'.1 ∧ Twin config token path n x.2 x'.2

section Calls

variable {config : Configuration} {c c' : Credentials}

theorem twin_fewer {m : ℕ} (h : Twin config token path n c c') (fewer : m ≤ n) :
    Twin config token path m c c' :=
  { h with worlds := paired_fewer h.worlds fewer }

theorem render_twin (h : Twin config token path n c c') (call : Call)
    (outcome : Except Failure Token) : c.render call outcome = c'.render call outcome := by
  have quota : c.config.quotaProject = c'.config.quotaProject := by rw [h.own, h.held]; rfl
  unfold Credentials.render
  rw [quota]

theorem look_twin (h : Twin config token path n c c') (call : Call) : c.look call = c'.look call := by
  unfold Credentials.look
  rw [h.cache, h.worlds.ticks]

variable (filed : config.source = .file ⟨path, .text⟩) (trimmed : Blank.trim token = token)
  (proper : Blank.allBlank token = false)

include filed trimmed proper

theorem retrieve_paired (h : Paired token path (n + 1) w w') :
    ((supplied config).retrieve w).1 = (config.retrieve w').1 ∧
      Paired token path n ((supplied config).retrieve w).2 (config.retrieve w').2 := by
  obtain ⟨v, called, after⟩ := provider_gives h
  have own : (supplied config).sourceToken w = (.ok token, v) := called
  have held : config.sourceToken w' = (.ok token, w') := by
    rw [Configuration.sourceToken, filed]
    exact file_gives trimmed proper h.kept
  rw [source_gives own, source_gives held]
  exact blind_exchanges config token after

theorem retrieve_twin (h : Twin config token path (n + 1) c c') :
    Agree config token path n c.retrieve c'.retrieve := by
  obtain ⟨result, after⟩ := retrieve_paired filed trimmed proper h.worlds
  unfold Credentials.retrieve
  rw [h.own, h.held]
  rcases hr : (supplied config).retrieve c.world with ⟨outcome, v⟩
  rcases hr' : config.retrieve c'.world with ⟨outcome', v'⟩
  rw [hr, hr'] at result after
  obtain rfl : outcome = outcome' := result
  rcases outcome with (e | _) | token
  · exact ⟨rfl, rfl, rfl, congrArg (·.publish (.error e)) h.cache, after⟩
  · exact ⟨rfl, rfl, rfl, h.cache, after⟩
  · exact ⟨rfl, rfl, rfl, congrArg (·.publish (.ok token)) h.cache, after⟩

theorem proceed_twin (h : Twin config token path (n + 1) c c') (call : Call) (reading : Reading) :
    Agree config token path n (c.proceed call reading) (c'.proceed call reading) := by
  have idle := twin_fewer h n.le_succ
  cases reading with
  | valid token => exact ⟨render_twin h call (.ok token), idle⟩
  | stale seen =>
    have turned : Agree config token path n (c.refreshAfter seen) (c'.refreshAfter seen) := by
      unfold Credentials.refreshAfter
      rw [h.cache]
      cases c'.cache.shared? seen with
      | some outcome => exact ⟨rfl, idle⟩
      | none => exact retrieve_twin filed trimmed proper h
    obtain ⟨result, after⟩ := turned
    refine ⟨?_, after⟩
    simp only [Credentials.proceed, result]
    exact render_twin after call _

theorem proceedAll_twin (calls : List (Call × Reading))
    (h : Twin config token path (n + calls.length) c c') :
    Agree config token path n (c.proceedAll calls) (c'.proceedAll calls) := by
  induction calls generalizing c c' with
  | nil => exact ⟨rfl, h⟩
  | cons first rest ih =>
    obtain ⟨call, reading⟩ := first
    obtain ⟨reply, after⟩ := proceed_twin filed trimmed proper h call reading
    obtain ⟨replies, last⟩ := ih after
    refine ⟨?_, last⟩
    simp only [Credentials.proceedAll, reply, replies]

theorem join_twin (calls : List Call) (h : Twin config token path (n + calls.length) c c') :
    Agree config token path n (c.join calls) (c'.join calls) := by
  have looks : (calls.map fun call => (call, c.look call)) =
      calls.map fun call => (call, c'.look call) := by
    simp only [look_twin h]
  unfold Credentials.join
  rw [looks]
  exact proceedAll_twin filed trimmed proper _ (by simpa using h)

theorem call_twin (h : Twin config token path (n + 1) c c') (call : Call) :
    Agree config token path n (c.call call) (c'.call call) := by
  unfold Credentials.call
  rw [look_twin h call]
  exact proceed_twin filed trimmed proper h call _

end Calls

/-- A step that asks for a token, alone or at once with others, or lets time pass. -/
inductive Move
  | ask (request : Session.Request) (hang : Bool)
  | join (requests : List Session.Request)
  | wait (milliseconds : ℕ)

def Move.step : Move → Step
  | .ask request hang => .call request hang
  | .join requests => .join requests
  | .wait milliseconds => .advance milliseconds

def Move.calls : Move → ℕ
  | .ask _ _ => 1
  | .join requests => requests.length
  | .wait _ => 0

theorem run_cleared (c : Credentials) (steps : List Step) :
    Session.run (onWorld c ({ · with events := [] })) steps = Session.run c steps := by
  cases steps <;> rfl

section Steps

variable {config : Configuration} {c c' : Credentials}

theorem paired_hang (h : Paired token path n w w') :
    Paired token path n (Session.hang w) (Session.hang w') :=
  ⟨⟨h.network, h.answers, h.now, h.ticks, h.provided, h.kept⟩, h.requests⟩

theorem paired_resume {m : ℕ} {before before' : World} (first : Paired token path m before before')
    (h : Paired token path n w w') :
    Paired token path n (Session.resume before w) (Session.resume before' w') :=
  ⟨⟨h.network, h.answers, first.now, first.ticks, h.provided, h.kept⟩, h.requests⟩

theorem paired_cleared (h : Alike token path n w w') :
    Paired token path n { w with events := [] } { w' with events := [] } :=
  ⟨⟨h.network, h.answers, h.now, h.ticks, h.provided, h.kept⟩, rfl⟩

theorem paired_later (h : Paired token path n w w') (d : Calendar.Nanoseconds) :
    Paired token path n { w with now := w.now + d, ticks := w.ticks + d }
      { w' with now := w'.now + d, ticks := w'.ticks + d } :=
  ⟨⟨h.network, h.answers, congrArg (· + d) h.now, congrArg (· + d) h.ticks, h.provided, h.kept⟩,
    h.requests⟩

variable (filed : config.source = .file ⟨path, .text⟩) (trimmed : Blank.trim token = token)
  (proper : Blank.allBlank token = false)

include filed trimmed proper

theorem ask_twin (h : Twin config token path (n + 1) c c') (request : Session.Request) :
    Agree config token path n (Session.call c request) (Session.call c' request) := by
  unfold Session.call
  split
  · obtain ⟨reply, after⟩ := call_twin filed trimmed proper h request.call
    exact ⟨congrArg Session.Response.reply reply, after⟩
  · exact ⟨rfl, twin_fewer h n.le_succ⟩

theorem stalled_twin (h : Twin config token path (n + 1) c c') (request : Session.Request) :
    Agree config token path n (Session.stalledCall c request)
      (Session.stalledCall c' request) := by
  have begun : Twin config token path (n + 1) (onWorld c Session.hang) (onWorld c' Session.hang) :=
    { h with worlds := paired_hang h.worlds }
  obtain ⟨response, after⟩ := ask_twin filed trimmed proper begun request
  exact ⟨response, { after with worlds := paired_resume h.worlds after.worlds }⟩

theorem step_twin (move : Move) (h : Twin config token path (n + move.calls) c c') :
    Agree config token path n (Session.step c move.step) (Session.step c' move.step) := by
  cases move with
  | ask request hang =>
    obtain ⟨response, after⟩ : Agree config token path n
        (if hang then Session.stalledCall c request else Session.call c request)
        (if hang then Session.stalledCall c' request else Session.call c' request) := by
      cases hang with
      | false => exact ask_twin filed trimmed proper h request
      | true => exact stalled_twin filed trimmed proper h request
    refine ⟨?_, after⟩
    simp only [Move.step, Session.step, response, after.worlds.ticks]
  | join requests =>
    have fewer : ((requests.filter (·.isAskable)).map (·.call)).length ≤ requests.length := by
      rw [List.length_map]
      exact List.length_filter_le _ _
    have enough := twin_fewer h (Nat.add_le_add_left fewer n)
    obtain ⟨replies, after⟩ := join_twin filed trimmed proper _ enough
    refine ⟨?_, after⟩
    simp only [Move.step, Session.step, Session.join, replies, after.worlds.ticks]
  | wait milliseconds => exact ⟨rfl, { h with worlds := paired_later h.worlds _ }⟩

/-- What one step shows, the whole session shows. -/
theorem run_twin (moves : List Move)
    (h : Twin config token path (moves.map Move.calls).sum c c') :
    Session.run c (moves.map Move.step) = Session.run c' (moves.map Move.step) := by
  induction moves generalizing c c' with
  | nil => rfl
  | cons move rest ih =>
    rw [List.map_cons, List.sum_cons, Nat.add_comm] at h
    have cleared : Twin config token path ((rest.map Move.calls).sum + move.calls)
        (onWorld c ({ · with events := [] })) (onWorld c' ({ · with events := [] })) :=
      { h with worlds := paired_cleared h.worlds.toAlike }
    obtain ⟨result, after⟩ := step_twin filed trimmed proper move cleared
    simp only [List.map_cons, Session.run, result, after.worlds.requests, ih after]

end Steps

/-- The values of a document with a text file for its source, given one by one, are refused with
the same error or make the same configuration but for the source. So both render alike but for one
member, and if the provider returns what the file holds, a token without white space around it,
every session of one is a session of the other. -/
theorem builders_agree (d : Document) (path : String)
    (filed : Grammar.Source d.source (.file ⟨path, .text⟩)) :
    ((∀ seconds ∈ d.tokenLifetime, seconds < 2 ^ 64) → Grammar.Describes (written d) d) ∧
    ∀ value, Grammar.Describes value d →
      Configuration.ofSettings (settingsOf d) = (Configuration.build value {}).map supplied ∧
      ∀ held, Configuration.build value {} = .ok held →
        held.source = .file ⟨path, .text⟩ ∧
        (∃ members, held.toJson = .object members ∧
          Members.get? members "credential_source" = some d.source ∧
          (supplied held).toJson =
            .object (members.filter fun m => m.1 != "credential_source")) ∧
        ∀ (token : String) (moves : List Move) (w w' : World),
          Blank.trim token = token → Blank.allBlank token = false →
          Alike token path (moves.map Move.calls).sum w w' →
          Session.run (.new (supplied held) w) (moves.map Move.step) =
            Session.run (.new held w') (moves.map Move.step) := by
  have parsed := Grammar.source_iff.mpr filed
  refine ⟨Builders.written_describes d, fun value described => ?_⟩
  rw [Grammar.build_described {} described]
  refine ⟨Builders.ofSettings_eq parsed, fun held built => ?_⟩
  obtain ⟨source, document⟩ := Builders.built_source parsed built
  obtain ⟨members, rendered, other⟩ := Builders.toJson_supplied held
  have shown := (Configuration.toJson_shows held).source
  rw [rendered, document] at shown
  refine ⟨source, ⟨members, rendered, shown, other⟩, fun token moves w w' trimmed proper alike => ?_⟩
  rw [← run_cleared, ← run_cleared (.new held w')]
  exact run_twin source trimmed proper moves ⟨rfl, rfl, rfl, paired_cleared alike⟩

def valued : Document :=
  ⟨"//iam/pool", "urn:jwt", "https://sts/token", none, .object [("file", .string "token")],
    some "https://iam/sa@project:generateAccessToken", some 900, some "project", none, none, none⟩

def granting : List Answer :=
  [.response ⟨200, Utf8.ofString "\x7b\"access_token\":\"granted\"\x7d"⟩,
    .response ⟨200, Utf8.ofString
      "\x7b\"accessToken\":\"final\",\"expireTime\":\"1970-01-01T00:00:09Z\"\x7d"⟩]

def providing : World :=
  ⟨.empty, .empty, fun _ files => (.notStarted, files), .scripted, granting,
    List.replicate 4 (.token "subject"), 0, 0, [], .plain⟩

def keeping : World :=
  ⟨.empty, FileTree.empty.put ["work", "token"] (.file (Utf8.ofString "subject")),
    fun _ files => (.notStarted, files), .scripted, granting, [], 0, 0, [], .plain⟩

/-- The token is asked for, used again by two callers at once, and asked for again when it has
expired and nothing answers any more. -/
def waiting : List Move :=
  [.ask ⟨.headers, none⟩ false, .join [⟨.headers, none⟩, ⟨.headers, none⟩], .wait 9000,
    .ask ⟨.headers, none⟩ false]

theorem builders_agree_waiting : ∃ held,
    Configuration.build (written valued) {} = .ok held ∧
      Configuration.ofSettings (settingsOf valued) = .ok (supplied held) ∧
      Session.run (.new (supplied held) providing) (waiting.map Move.step) =
        Session.run (.new held keeping) (waiting.map Move.step) := by
  have filed : Grammar.Source valued.source (.file ⟨"token", .text⟩) :=
    Grammar.source_iff.mp (by decide +kernel)
  obtain ⟨describes, agree⟩ := builders_agree valued "token" filed
  obtain ⟨built, sessions⟩ := agree (written valued) (describes (by decide))
  have made : Configuration.build (written valued) {} = .ok (Grammar.assembled valued {}
      (some ⟨"https://iam/sa@project:generateAccessToken", "sa@project", some 900⟩)
      (.file ⟨"token", .text⟩)) :=
    Builders.build_written (by decide) (by decide +kernel) (by decide +kernel) (by decide +kernel)
  have alike : Alike "subject" "token" (waiting.map Move.calls).sum providing keeping :=
    ⟨rfl, rfl, rfl, rfl, ⟨[], rfl⟩, by decide +kernel⟩
  rw [made] at built
  exact ⟨_, made, built,
    (sessions _ made).2.2 "subject" waiting providing keeping (by decide +kernel)
      (by decide +kernel) alike⟩

end WorkloadIdentity.Twins
