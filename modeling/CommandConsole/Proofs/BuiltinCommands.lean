import CommandConsole.Proofs.BuiltinParsers
import CommandConsole.Proofs.Reporting
set_option autoImplicit false

/-!
The built-in commands of a console in use. Later registrations only add overloads behind them and
replace no parser, so they answer as on the first day, and help has a line for every topic.
-/

namespace CommandConsole

/-- The registrations of a console that was given the built-in commands first. -/
def builtinsThen {σ : Type} (history : List (Registration (Handler σ))) :
    List (Registration (Handler σ)) :=
  builtinCommands.map .command ++ history

/-- A console with the built-in commands after further registrations. -/
def Console.builtinThen {σ : Type} (config : Config) (history : List (Registration (Handler σ))) :
    Console (Handler σ) :=
  (Console.new config).registerBuiltins.enterAll history

/-- The help page of an overload: the description, and the usage behind the name on a line of its
own. -/
def helpPage (name : String) (s : Signature) : String :=
  if s.usage = "" then s.description
  else (if s.description = "" then "" else s.description ++ "\n") ++ "\t" ++ name ++ " " ++ s.usage

def Signature.isDocumented (s : Signature) : Bool := s.description != "" || s.usage != ""

/-- The line that help shows for a topic with these overloads. -/
def helpLine {α : Type} (name : String) (os : List (Overload α)) : Severity × String :=
  if os = [] then
    (.error,
      "No command found with name '" ++ name ++ "', to see a list of all commands use 'list'.")
  else if ∀ o ∈ os, o.signature.isDocumented = false then
    (.message, "There is no help page created for '" ++ name ++ "'.")
  else
    (.message, joinStrings '\n'
      ((os.filter (·.signature.isDocumented)).map (helpPage name ·.signature)))

theorem helpPage?_eq (name : String) (s : Signature) :
    helpPage? name s = if s.isDocumented then some (helpPage name s) else none := by
  unfold helpPage? Signature.isDocumented helpPage Signature.description? Signature.usage? nonEmpty?
  by_cases hd : s.description = "" <;> by_cases hu : s.usage = "" <;>
    simp [hd, hu, String.append_assoc]

theorem filterMap_helpPage? {α : Type} (name : String) (os : List (Overload α)) :
    (os.filterMap fun o => helpPage? name o.signature) =
      (os.filter (·.signature.isDocumented)).map (helpPage name ·.signature) := by
  induction os with
  | nil => rfl
  | cons o os ih =>
    rw [List.filterMap_cons, helpPage?_eq]
    cases ho : o.signature.isDocumented <;> simp [ho, ih]

/-- What help is told of a topic is its line, where the topic is registered. -/
theorem Console.helpText?_eq_helpLine {α : Type} (c : Console α) (name : String) :
    c.helpText? name =
      if c.registry.named name = [] then none
      else some (helpLine name (c.registry.named name)).2 := by
  unfold helpText?
  split
  · next hnone => rw [if_pos hnone]
  · next os hsome =>
    rw [if_neg hsome, helpLine, if_neg hsome, filterMap_helpPage?]
    split
    · next hpages =>
      have hall : ∀ o ∈ c.registry.named name, o.signature.isDocumented = false := by
        simpa using hpages
      rw [if_pos hall]
    · next hpages =>
      have hnot : ¬∀ o ∈ c.registry.named name, o.signature.isDocumented = false := by
        simpa using hpages
      rw [if_neg hnot]

theorem severity_helpLine {α : Type} (name : String) {os : List (Overload α)} (h : os ≠ []) :
    (helpLine name os).1 = .message := by
  rw [helpLine, if_neg h]
  split <;> rfl

section scripts

variable {σ : Type} (c : Console (Handler σ))
  (submit : String → σ → Option (Outcome σ Submission))
  (execute : String → List String → σ → Option (Outcome σ Nat)) (s : σ)

/-- A script says one line and does nothing else. -/
def Says (x : Script σ Unit) (line : Severity × String) : Prop :=
  x.run c.view submit execute s = some ⟨.ok (), s, [.line line.1 line.2]⟩

theorem says_showHelp (name : String) :
    Says c submit execute s (showHelp name) (helpLine name (c.registry.named name)) := by
  have hview := (c.helpText?_view name).trans (c.helpText?_eq_helpLine name)
  rw [Says]
  by_cases hnamed : c.registry.named name = []
  · rw [if_pos hnamed] at hview
    simp only [showHelp, Script.console, bind, Script.bind, Script.run, hview]
    rw [hnamed]
    rfl
  · rw [if_neg hnamed] at hview
    simp only [showHelp, Script.console, bind, Script.bind, Script.run, hview]
    rw [severity_helpLine name hnamed]
    rfl

theorem says_helpTopic (name topic : String) :
    Says c submit execute s (helpTopic.action ⟨name, [.string topic, .context]⟩)
      (helpLine topic (c.registry.named topic)) :=
  says_showHelp c submit execute s topic

theorem says_helpOverview (call : Invocation) :
    Says c submit execute s (helpOverview.action call)
      (helpLine "help" (c.registry.named "help")) :=
  says_showHelp c submit execute s "help"

theorem says_logCommand (name description text : String) (severity : Severity) :
    Says c submit execute s
      ((logCommand name description severity).action ⟨name, [.string text, .context]⟩)
      (severity, text) := rfl

end scripts

section calls

variable {σ : Type} {c : Console (Handler σ)}

/-- A line runs an overload of a name. The host is shown one line and its state stays as it is. -/
def Console.Shows (c : Console (Handler σ)) (line name : String) (index : Nat)
    (shown : Severity × String) : Prop :=
  ∀ (depth : Nat) (s : σ), ∃ o, c.submit (depth + 1) line s = some o ∧
    o.result = .ok (.invoked name index) ∧ o.state = s ∧ hostLines o.events = [shown]

theorem Console.shows_of_resolve {line : String} {l : CommandLine} {r : Resolution (Handler σ)}
    {shown : Severity × String} (hread : CommandLine.read? line = some l)
    (hresolve : c.registry.resolve l.name l.arguments = .ok r)
    (hsaid : ∀ submit execute s,
      Says c submit execute s (r.overload.action ⟨l.name, r.arguments⟩) shown) :
    c.Shows line l.name r.index shown :=
  Console.answers_of_ok hread hresolve fun _ s => hsaid _ _ s

end calls

section bindings

variable {α : Type} {r : Registry α}

/-- An overload in front of the others of its name is chosen where it can be. -/
theorem Registry.resolve_first {name : String} {tokens : List String} {o : Overload α}
    {os : List (Overload α)} {values : List Value} (hnamed : r.named name = o :: os)
    (hbind : o.signature.bind r.parsers tokens = some values) :
    r.resolve name tokens = .ok ⟨o, 0, values⟩ := by
  rw [resolve_eq_ok_iff, hnamed, firstViable?, hbind]

/-- One text and the console can be bound to any token. -/
theorem bind_text {t : ParserTable} (h : t.HasBuiltins) {s : Signature} {name place : String}
    (hparams : s.params = [.required name .string, .context place]) (token : String) :
    s.bind t [token] = some [.string token, .context] := by
  have hrequired : s.required = 1 := by rw [Signature.required, hparams]; rfl
  have haccepted : s.accepted = 1 := by rw [Signature.accepted, hparams]; rfl
  have htoken := (h.converts_string token).1
  rw [Signature.bind, if_pos (by simp [hrequired, haccepted]), hparams, bindParams,
    if_neg (by simp [Param.required, Param.isContext])]
  dsimp only [Param.required]
  rw [htoken]
  rfl

end bindings

section console

variable {σ : Type} (config : Config) (history : List (Registration (Handler σ)))

theorem registry_builtinThen :
    (Console.builtinThen config history).registry =
      (Registry.empty .builtin).enterAll (builtinsThen history) := by
  rw [Console.builtinThen, Console.enterAll_eq, builtinsThen, Registry.enterAll, Registry.enterAll,
    List.foldl_append]
  rfl

theorem named_builtinThen (name : String) :
    (Console.builtinThen config history).registry.named name =
      registeredUnder name (builtinsThen history) := by
  rw [registry_builtinThen, Registry.named_enterAll, Registry.named_empty, List.nil_append]

theorem hasBuiltins_builtinThen :
    (Console.builtinThen config history).registry.parsers.HasBuiltins := by
  rw [registry_builtinThen]
  exact Registry.hasBuiltins_enterAll _

/-- The built-in commands of a name stand in front of what was registered later. -/
theorem named_builtinThen_eq {name : String} (h : isTypeable name = true) :
    (Console.builtinThen config history).registry.named name =
      commandsNamed name (builtinCommands.map .command) ++ registeredUnder name history := by
  rw [named_builtinThen, builtinsThen, registeredUnder_append,
    registeredUnder_eq name (builtinCommands.map .command), if_pos h]

theorem named_help :
    (Console.builtinThen config history).registry.named "help" =
      helpTopic :: helpOverview :: registeredUnder "help" history :=
  named_builtinThen_eq config history (by decide +kernel)

/-- The logging commands with the severity of each. -/
def loggers : List (String × Severity) :=
  [("logSuccess", .success), ("logWarning", .warning), ("logError", .error)]

theorem named_logger {name : String} {severity : Severity} (h : (name, severity) ∈ loggers) :
    ∃ description, (Console.builtinThen config history).registry.named name =
      logCommand name description severity :: registeredUnder name history := by
  simp only [loggers, List.mem_cons, Prod.mk.injEq, List.not_mem_nil, or_false] at h
  rcases h with ⟨rfl, rfl⟩ | ⟨rfl, rfl⟩ | ⟨rfl, rfl⟩
  · exact ⟨_, named_builtinThen_eq config history (by decide +kernel)⟩
  · exact ⟨_, named_builtinThen_eq config history (by decide +kernel)⟩
  · exact ⟨_, named_builtinThen_eq config history (by decide +kernel)⟩

end console

section shown

variable {σ : Type} {c : Console (Handler σ)}

/-- A call of a command that takes one text, where the command is the first of its name. -/
theorem Console.shows_text {name text param place : String} {o : Overload (Handler σ)}
    {os : List (Overload (Handler σ))} {shown : Severity × String}
    (hparsers : c.registry.parsers.HasBuiltins) (htypeable : isTypeable name = true)
    (htext : '"' ∉ text.toList) (hnamed : c.registry.named name = o :: os)
    (hparams : o.signature.params = [.required param .string, .context place])
    (hsaid : ∀ submit execute s,
      Says c submit execute s (o.action ⟨name, [.string text, .context]⟩) shown) :
    c.Shows (name ++ " " ++ quoteToken text) name 0 shown := by
  obtain ⟨hne, hname⟩ := isTypeable_iff.1 htypeable
  have htyped : name ++ " " ++ quoteToken text = typedLine name [text] := rfl
  have hread : CommandLine.read? (typedLine name [text]) = some ⟨name, [text]⟩ :=
    read?_typedLine hne hname (by simpa using htext)
  have hresolve := Registry.resolve_first hnamed (bind_text hparsers hparams text)
  rw [htyped]
  exact Console.shows_of_resolve (l := ⟨name, [text]⟩) (r := ⟨o, 0, [.string text, .context]⟩)
    hread hresolve hsaid

/-- Help without a topic goes to the second overload, since the first one wants a topic. -/
theorem Console.shows_help {os : List (Overload (Handler σ))}
    (hnamed : c.registry.named "help" = helpTopic :: helpOverview :: os) :
    c.Shows "help" "help" 1 (helpLine "help" (c.registry.named "help")) := by
  obtain ⟨hne, hname⟩ := isTypeable_iff.1 (by decide +kernel : isTypeable "help" = true)
  have hread : CommandLine.read? (typedLine "help" []) = some ⟨"help", []⟩ :=
    read?_typedLine hne hname (by simp)
  have htopic : (helpTopic (σ := σ)).signature.bind c.registry.parsers [] = none := rfl
  have hoverview : (helpOverview (σ := σ)).signature.bind c.registry.parsers [] =
      some [.context] := rfl
  have hresolve : c.registry.resolve "help" [] = .ok ⟨helpOverview, 1, [.context]⟩ := by
    simp only [Registry.resolve_eq_ok_iff, hnamed, firstViable?, htopic, hoverview]
  exact Console.shows_of_resolve (l := ⟨"help", []⟩) (r := ⟨helpOverview, 1, [.context]⟩) hread
    hresolve fun submit execute s => says_helpOverview c submit execute s _

end shown

/-- Whatever was registered since, help with a topic and the logging commands run their first
overloads on every text, and help without a topic runs its second one. Help has one line to show for
every topic, and the logging commands show the text itself. -/
theorem builtin_commands_stay {σ : Type} (config : Config)
    (history : List (Registration (Handler σ))) :
    let c := Console.builtinThen config history
    let overloads := fun name => registeredUnder name (builtinsThen history)
    (∀ topic, '"' ∉ topic.toList →
      (c.registry.contains topic = true ↔ overloads topic ≠ []) ∧
      c.Shows ("help " ++ quoteToken topic) "help" 0 (helpLine topic (overloads topic))) ∧
    (helpLine "help" (overloads "help")).1 = .message ∧
    c.Shows "help" "help" 1 (helpLine "help" (overloads "help")) ∧
    c.Shows "help help" "help" 0 (helpLine "help" (overloads "help")) ∧
    ∀ name severity, (name, severity) ∈ loggers → ∀ text, '"' ∉ text.toList →
      c.Shows (name ++ " " ++ quoteToken text) name 0 (severity, text) := by
  intro c overloads
  have hoverloads : ∀ name, c.registry.named name = overloads name :=
    named_builtinThen config history
  have hparsers : c.registry.parsers.HasBuiltins := hasBuiltins_builtinThen config history
  have hhelp : c.registry.named "help" =
      helpTopic :: helpOverview :: registeredUnder "help" history :=
    named_help config history
  have htopic : ∀ topic : String, '"' ∉ topic.toList →
      c.Shows ("help " ++ quoteToken topic) "help" 0 (helpLine topic (overloads topic)) := by
    intro topic hquote
    have hspace : "help " = "help" ++ " " := by decide
    rw [← hoverloads, hspace]
    exact Console.shows_text hparsers (by decide +kernel) hquote hhelp rfl
      fun submit execute s => says_helpTopic c submit execute s "help" topic
  refine ⟨fun topic hquote => ⟨?_, htopic topic hquote⟩, ?_, ?_, htopic "help" (by decide), ?_⟩
  · rw [Registry.contains_iff, Registry.mem_keys, hoverloads]
  · refine severity_helpLine "help" ?_
    rw [← hoverloads, hhelp]
    exact List.cons_ne_nil _ _
  · rw [← hoverloads]
    exact Console.shows_help hhelp
  · intro name severity hlogger text hquote
    obtain ⟨description, hnamed⟩ := named_logger config history hlogger
    have htypeable : isTypeable name = true := by
      simp only [loggers, List.mem_cons, Prod.mk.injEq, List.not_mem_nil, or_false] at hlogger
      rcases hlogger with ⟨rfl, -⟩ | ⟨rfl, -⟩ | ⟨rfl, -⟩ <;> decide +kernel
    exact Console.shows_text hparsers htypeable hquote hnamed rfl
      fun submit execute s => says_logCommand c submit execute s name description text severity

/-- Later overloads of two commands and a parser that refuses every text take nothing over. -/
theorem builtin_commands_stay_challenged :
    let command : String → String → Overload (Handler Unit) := fun name usage =>
      ⟨⟨name, [.required "text" .string], "", usage⟩, fun _ => .fail (.command "taken over")⟩
    let history := [.command (command "help" ""), .parser (.ofProbe .string fun _ => none),
      .command (command "logError" ""), .command (command "tp" "[position]")]
    let c := Console.builtinThen .default history
    c.Shows "help tp" "help" 0 (.message, "\ttp [position]") ∧
      c.Shows "help \"no one\"" "help" 0 (.error,
        "No command found with name 'no one', to see a list of all commands use 'list'.") ∧
      c.Shows "logError \"a b\"" "logError" 0 (.error, "a b") := by
  intro command history c
  obtain ⟨htopic, -, -, -, hlog⟩ := builtin_commands_stay .default history
  refine ⟨?_, ?_, ?_⟩
  · have hline : helpLine "tp" (registeredUnder "tp" (builtinsThen history)) =
        (.message, "\ttp [position]") := by
      decide +kernel
    have hshows := (htopic "tp" (by decide)).2
    rw [hline, (by decide +kernel : "help " ++ quoteToken "tp" = "help tp")] at hshows
    exact hshows
  · have hline : helpLine "no one" (registeredUnder "no one" (builtinsThen history)) = (.error,
        "No command found with name 'no one', to see a list of all commands use 'list'.") := by
      decide +kernel
    have hshows := (htopic "no one" (by decide)).2
    rw [hline, (by decide +kernel : "help " ++ quoteToken "no one" = "help \"no one\"")] at hshows
    exact hshows
  · have hshows := hlog "logError" .error (by decide) "a b" (by decide)
    rw [(by decide +kernel : "logError" ++ " " ++ quoteToken "a b" = "logError \"a b\"")] at hshows
    exact hshows

end CommandConsole
