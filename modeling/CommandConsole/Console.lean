import CommandConsole.Parser.Builtin
import CommandConsole.Registry
import CommandConsole.Config
set_option autoImplicit false

/-!
A console: a registry of commands with a configuration, and the questions that can be asked of it
without running anything.
-/

namespace CommandConsole

structure Console (α : Type) where
  registry : Registry α
  config : Config

/-- A console without commands, which knows the built-in parsers. -/
def Console.new {α : Type} (config : Config) : Console α := ⟨.empty .builtin, config⟩

def Console.register {α : Type} (c : Console α) (o : Overload α) : Console α :=
  { c with registry := c.registry.register o }

def Console.registerAll {α : Type} (c : Console α) (os : List (Overload α)) : Console α :=
  os.foldl Console.register c

def Console.registerParser {α : Type} (c : Console α) (p : ValueParser) : Console α × Bool :=
  ({ c with registry := (c.registry.registerParser p).1 }, (c.registry.registerParser p).2)

/-- The console as a handler sees it. -/
def Console.view {α : Type} (c : Console α) : Console Unit :=
  { c with registry := c.registry.signatures }

def Console.names {α : Type} (c : Console α) : List String := c.registry.names.words

def Console.suggest {α : Type} (c : Console α) (start : String) : List String :=
  c.registry.names.suggest start c.config.includeExactSuggestion

/-- Refills a buffer with command names that start with a text. -/
def Console.suggestInto {α : Type} (c : Console α) (start : String) (b : Suggestions) :
    Suggestions :=
  b.fill c.registry.names start c.config.includeExactSuggestion

def Console.suggestBounded {α : Type} (c : Console α) (start : String) (max : Nat) :
    List String :=
  (c.suggestInto start (.empty max)).toList

/-- A buffer for as many suggestions as are configured. -/
def Console.suggestions {α : Type} (c : Console α) : Suggestions := .empty c.config.maxSuggestions

/-- What help says about one overload, if it says anything: the description, then the name with
the usage on an indented line. -/
def helpPage? (name : String) (s : Signature) : Option String :=
  match s.description?, s.usage? with
  | some description, some usage => some (description ++ "\n\t" ++ name ++ " " ++ usage)
  | none, some usage => some ("\t" ++ name ++ " " ++ usage)
  | some description, none => some description
  | none, none => none

/-- The help pages of a command, or a notice where it has none. -/
def Console.helpText? {α : Type} (c : Console α) (name : String) : Option String :=
  match c.registry.named name with
  | [] => none
  | os =>
    match os.filterMap fun o => helpPage? name o.signature with
    | [] => some ("There is no help page created for '" ++ name ++ "'.")
    | pages => some (joinStrings '\n' pages)

end CommandConsole
