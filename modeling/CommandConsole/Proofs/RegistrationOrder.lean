import CommandConsole.Proofs.AddedCommand
import CommandConsole.Proofs.TrieShape
import CommandConsole.Proofs.View
set_option autoImplicit false

/-!
The order of registrations. A console keeps of its history only the commands of each name and the
parsers of each type; how these histories were woven into one makes no difference to any answer.
-/

namespace CommandConsole

/-- The commands of a name in a history, whether the name can be typed or not. -/
def commandsNamed {α : Type} (name : String) (history : List (Registration α)) :
    List (Overload α) :=
  history.filterMap fun
    | .command o => if o.signature.name = name then some o else none
    | .parser _ => none

/-- The parsers for a type in a history, also those that a table refuses. -/
def parsersFor {α : Type} (type : ValueType) (history : List (Registration α)) :
    List ValueParser :=
  history.filterMap fun
    | .command _ => none
    | .parser p => if p.type = type then some p else none

/-- Histories with the same commands of each name and the same parsers for each type, in the same
order. What has different names or types may stand in another order. -/
structure SameByKey {α : Type} (h h' : List (Registration α)) : Prop where
  commands : ∀ name, commandsNamed name h = commandsNamed name h'
  parsers : ∀ type, parsersFor type h = parsersFor type h'

theorem registeredUnder_eq {α : Type} (name : String) (history : List (Registration α)) :
    registeredUnder name history =
      if isTypeable name then commandsNamed name history else [] := by
  unfold registeredUnder commandsNamed
  split
  · next htypeable =>
    refine List.filterMap_congr fun x _ => ?_
    cases x with
    | command o =>
      by_cases hname : o.signature.name = name
      · simp [hname, htypeable]
      · simp [hname]
    | parser p => rfl
  · next hskipped =>
    refine List.filterMap_eq_nil_iff.2 fun x _ => ?_
    cases x with
    | command o =>
      by_cases hname : o.signature.name = name
      · simp [hname, hskipped]
      · simp [hname]
    | parser p => rfl

theorem Registry.of_enterAll {α : Type} (r : Registry α) (history : List (Registration α))
    (type : ValueType) :
    (r.enterAll history).parsers.of type =
      if type ≠ .context ∧ r.parsers.of type = [] then (parsersFor type history).take 1
      else r.parsers.of type := by
  induction history generalizing r with
  | nil =>
    by_cases h : type ≠ .context ∧ r.parsers.of type = []
    · rw [if_pos h]
      simp [enterAll, parsersFor, h.2]
    · rw [if_neg h]
      rfl
  | cons x history ih =>
    have hstep : (r.enterAll (x :: history)) = (r.enter x).enterAll history := rfl
    rw [hstep, ih]
    cases x with
    | command o => simp [enter, parsers_register, parsersFor]
    | parser p =>
      simp only [enter, registerParser, ParserTable.of_register]
      by_cases hp : p.type = type
      · by_cases h : type ≠ .context ∧ r.parsers.of type = []
        · simp [hp, h, parsersFor]
        · simp [hp, h]
      · simp [hp, parsersFor]

theorem Registry.live_enterAll {α : Type} {r : Registry α} (h : r.names.root.Live)
    (history : List (Registration α)) : (r.enterAll history).names.root.Live := by
  induction history generalizing r with
  | nil => exact h
  | cons x history ih =>
    refine ih (r := r.enter x) ?_
    cases x with
    | command o =>
      simp only [enter, register]
      split
      · exact Trie.live_insert h _
      · exact h
    | parser p => exact h

/-- Registries in step with the same overloads of every name have the same trie. -/
theorem Registry.InStep.names_eq {α : Type} {r r' : Registry α} (h : r.InStep) (h' : r'.InStep)
    (hl : r.names.root.Live) (hl' : r'.names.root.Live)
    (hnamed : ∀ name, r.named name = r'.named name) : r.names = r'.names := by
  have hkeys : r.keys.toFinset = r'.keys.toFinset := by
    ext name
    rw [List.mem_toFinset, List.mem_toFinset, mem_keys, mem_keys, hnamed]
  exact h.holds.eq_of_live (hkeys ▸ h'.holds) hl hl'

theorem SameByKey.alike {α : Type} {h h' : List (Registration α)} (hsame : SameByKey h h')
    (parsers : ParserTable) :
    ((Registry.empty parsers).enterAll h).Alike ((Registry.empty parsers).enterAll h') := by
  have hnamed : ∀ name, ((Registry.empty parsers).enterAll h).named name =
      ((Registry.empty parsers).enterAll h').named name := by
    intro name
    rw [Registry.named_enterAll, Registry.named_enterAll, registeredUnder_eq, registeredUnder_eq,
      hsame.commands]
  have hstep := Registry.InStep.empty (α := α) parsers
  have hlive : (Registry.empty (α := α) parsers).names.root.Live := trivial
  refine ⟨hnamed, ?_, ?_⟩
  · exact (hstep.enterAll h).names_eq (hstep.enterAll h') (Registry.live_enterAll hlive h)
      (Registry.live_enterAll hlive h') hnamed
  · intro type
    rw [Registry.of_enterAll, Registry.of_enterAll, hsame.parsers]

def Console.enter {α : Type} (c : Console α) : Registration α → Console α
  | .command o => c.register o
  | .parser p => (c.registerParser p).1

def Console.enterAll {α : Type} (c : Console α) (history : List (Registration α)) : Console α :=
  history.foldl Console.enter c

theorem Console.enterAll_eq {α : Type} (c : Console α) (history : List (Registration α)) :
    c.enterAll history = ⟨c.registry.enterAll history, c.config⟩ := by
  induction history generalizing c with
  | nil => rfl
  | cons x history ih =>
    have hstep : c.enter x = ⟨c.registry.enter x, c.config⟩ := by cases x <;> rfl
    calc
      c.enterAll (x :: history) = (c.enter x).enterAll history := rfl
      _ = ⟨(c.enter x).registry.enterAll history, (c.enter x).config⟩ := ih _
      _ = ⟨c.registry.enterAll (x :: history), c.config⟩ := by rw [hstep]; rfl

/-- The consoles answer every question in the same way, and run every command in the same way: with
the same result, the same state of the host, and the same events in the same order. -/
structure Console.SameAnswers {σ : Type} (c c' : Console (Handler σ)) : Prop where
  resolve : ∀ name tokens, c.registry.resolve name tokens = c'.registry.resolve name tokens
  overloads : ∀ name, c.registry.overloads? name = c'.registry.overloads? name
  contains : ∀ name, c.registry.contains name = c'.registry.contains name
  size : c.registry.size = c'.registry.size
  isEmpty : c.registry.isEmpty = c'.registry.isEmpty
  names : c.names = c'.names
  suggest : ∀ start, c.suggest start = c'.suggest start
  suggestBounded : ∀ start max, c.suggestBounded start max = c'.suggestBounded start max
  suggestInto : ∀ start b, c.suggestInto start b = c'.suggestInto start b
  helpText : ∀ name, c.helpText? name = c'.helpText? name
  hasParser : ∀ type, c.registry.parsers.contains type = c'.registry.parsers.contains type
  tryConvert : ∀ type token,
    c.registry.parsers.tryConvert type token = c'.registry.parsers.tryConvert type token
  convert : ∀ type token,
    c.registry.parsers.convert type token = c'.registry.parsers.convert type token
  execute : ∀ depth name tokens s, c.execute depth name tokens s = c'.execute depth name tokens s
  submit : ∀ depth line s, c.submit depth line s = c'.submit depth line s

namespace Registry.Alike

variable {α : Type} {r r' : Registry α}

theorem parsers_alike (h : r.Alike r') : r.parsers.Alike r'.parsers := by
  intro type
  rw [ParserTable.find?_eq_head?, ParserTable.find?_eq_head?, h.parsers_eq]

theorem resolve_eq (h : r.Alike r') (name : String) (tokens : List String) :
    r.resolve name tokens = r'.resolve name tokens := by
  unfold resolve
  rw [h.named_eq]
  simp only [h.parsers_alike.firstViable?_eq]

theorem resolveDiagnostics_eq (h : r.Alike r') (name : String) (tokens : List String) :
    r.resolveDiagnostics name tokens = r'.resolveDiagnostics name tokens := by
  rw [resolveDiagnostics, resolveDiagnostics, h.named_eq, h.parsers_alike.viabilityDiagnostics_eq]

theorem contains_eq (h : r.Alike r') (name : String) : r.contains name = r'.contains name := by
  rw [contains, contains, h.named_eq]

theorem overloads?_eq (h : r.Alike r') (name : String) :
    r.overloads? name = r'.overloads? name := by
  rw [overloads?, overloads?, h.contains_eq, h.named_eq]

theorem size_eq (h : r.Alike r') : r.size = r'.size := by
  refine ((List.perm_ext_iff_of_nodup (nodup_eraseDups _) (nodup_eraseDups _)).2 ?_).length_eq
  intro name
  exact mem_keys.trans (h.named_eq name ▸ mem_keys.symm)

theorem isEmpty_eq (h : r.Alike r') : r.isEmpty = r'.isEmpty := by
  have hsorted : ∀ os : List (Overload α), os.isEmpty = (sortByName os).isEmpty := by
    intro os
    exact ((List.mergeSort_perm os _).isEmpty_eq).symm
  rw [isEmpty, isEmpty, hsorted, h.sortByName_eq, ← hsorted]

end Registry.Alike

section console

variable {σ : Type} {c c' : Console (Handler σ)}

/-- Each handler sees the same view, so the runs stay together call by call. -/
theorem Console.execute_eq (h : c.registry.Alike c'.registry) (hconfig : c.config = c'.config)
    (depth : Nat) : c.execute depth = c'.execute depth := by
  have hview : c.view = c'.view := by rw [view, view, h.signatures_eq, hconfig]
  have hnotes : c.notes = c'.notes := by
    funext name tokens
    rw [notes, notes, h.resolveDiagnostics_eq]
  induction depth with
  | zero =>
    funext name tokens s
    have hresolve := h.resolve_eq name tokens
    cases hr : c'.registry.resolve name tokens with
    | error e => rw [c.execute_of_error (hresolve.trans hr), c'.execute_of_error hr, hnotes]
    | ok r => rw [c.execute_zero (hresolve.trans hr), c'.execute_zero hr]
  | succ depth ih =>
    funext name tokens s
    have hresolve := h.resolve_eq name tokens
    cases hr : c'.registry.resolve name tokens with
    | error e => rw [c.execute_of_error (hresolve.trans hr), c'.execute_of_error hr, hnotes]
    | ok r =>
      have hsubmit : c.submit depth = c'.submit depth := by
        funext line s
        rw [submit, submit, ih]
      have hran : c.runHandler depth name r s = c'.runHandler depth name r s := by
        rw [runHandler, runHandler, hview, hsubmit, ih]
      rw [c.execute_succ (hresolve.trans hr), c'.execute_succ hr, hnotes, hran]

theorem Console.helpText?_eq (h : c.registry.Alike c'.registry) (name : String) :
    c.helpText? name = c'.helpText? name := by
  rw [helpText?, helpText?, h.named_eq]

theorem Console.sameAnswers (h : c.registry.Alike c'.registry) (hconfig : c.config = c'.config) :
    c.SameAnswers c' where
  resolve := h.resolve_eq
  overloads := h.overloads?_eq
  contains := h.contains_eq
  size := h.size_eq
  isEmpty := h.isEmpty_eq
  names := by rw [names, names, h.names_eq]
  suggest start := by rw [suggest, suggest, h.names_eq, hconfig]
  suggestBounded start max := by
    rw [suggestBounded, suggestBounded, suggestInto, suggestInto, h.names_eq, hconfig]
  suggestInto start b := by rw [suggestInto, suggestInto, h.names_eq, hconfig]
  helpText := helpText?_eq h
  hasParser := h.parsers_alike.contains_eq
  tryConvert := h.parsers_alike.tryConvert_eq
  convert := h.parsers_alike.convert_eq
  execute depth name tokens s := by rw [execute_eq h hconfig]
  submit depth line s := by rw [submit, submit, execute_eq h hconfig]

end console

/-- Registrations may be woven together in any way that keeps the commands of each name and the
parsers of each type in their order: the consoles that they make answer everything alike. -/
theorem registration_order_free {σ : Type} (config : Config)
    {history history' : List (Registration (Handler σ))} (h : SameByKey history history') :
    ((Console.new config).enterAll history).SameAnswers
      ((Console.new config).enterAll history') := by
  rw [Console.enterAll_eq, Console.enterAll_eq]
  exact Console.sameAnswers (h.alike .builtin) rfl

/-- The overloads of help stay in their order; the command that lists the names and a parser change
their places, and a command that is skipped comes last. -/
theorem registration_order_free_list :
    let unread : ValueParser := .ofProbe (.custom "color") fun _ => none
    let skipped : Overload (Handler Unit) := ⟨⟨"my list", [], "", ""⟩, fun _ => .done ()⟩
    let history : List (Registration (Handler Unit)) :=
      [.command skipped, .command helpTopic, .command listCommands, .command helpOverview,
        .parser unread]
    let history' : List (Registration (Handler Unit)) :=
      [.parser unread, .command listCommands, .command helpTopic, .command helpOverview,
        .command skipped]
    SameByKey history history' ∧
      ((Console.new .default).enterAll history).names =
        ((Console.new .default).enterAll history').names ∧
      ((Console.new .default).enterAll history).submit 1 "list" () =
        ((Console.new .default).enterAll history').submit 1 "list" () := by
  intro unread skipped history history'
  have h : SameByKey history history' := by
    constructor
    · intro name
      by_cases hskipped : "my list" = name
      · subst hskipped
        rfl
      · by_cases hlist : "list" = name
        · subst hlist
          rfl
        · simp [commandsNamed, history, history', List.filterMap_cons, skipped, listCommands, hskipped,
            hlist]
    · intro type
      rfl
  have hsame := registration_order_free .default h
  exact ⟨h, hsame.names, hsame.submit 1 "list" ()⟩

end CommandConsole
