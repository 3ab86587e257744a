import IdleGame.Game

/-!
# Issues of a game

A game runs whatever is authored: unknown names read as zero, and adding to a string makes a number
of it. An issue is an authored mistake of that sort, found before the game is played.

## Main definitions

* `Issue` - a mistake, and where it was made
* `Game.issues` - all mistakes of a game
-/

namespace IdleGame

/-- A mistake in a game. -/
structure Issue where
  location : String
  message : String
deriving DecidableEq, Repr

namespace Issue

/-- The issue in words. -/
def display (i : Issue) : String := i.location ++ ": " ++ i.message

end Issue

/-- A name between quotes. -/
def inQuotes (name : String) : String := "'" ++ name ++ "'"

namespace Game

/-- What names can refer to: the declared kinds, and the events that event rules listen for. -/
structure Declared where
  kinds : Table VarKind
  events : List String

/-- What names of a game can refer to. -/
def declared (g : Game) : Declared where
  kinds := g.kinds
  events := (g.rules.filter (·.timing = .event)).filterMap Rule.event

namespace Declared

/-- What is wrong about a variable that is only read or set. -/
def variableIssues (d : Declared) (id : String) : List String :=
  if d.kinds.contains id then [] else ["unknown state variable " ++ inQuotes id]

/-- What is wrong about a variable that has to be a number in some role. -/
def numberIssues (d : Declared) (role id : String) : List String :=
  match d.kinds.get? id with
  | some .number => []
  | some _ => [role ++ " " ++ inQuotes id ++ " is not a number"]
  | none => d.variableIssues id

/-- What is wrong in an expression. -/
def exprIssues (d : Declared) (e : Expr) : List String :=
  e.nodes.flatMap fun
    | .ref id | .flag id => d.variableIssues id
    | _ => []

/-- What is wrong in named expressions. -/
def entriesIssues (d : Declared) (es : List (String × Expr)) : List String :=
  es.flatMap fun e => d.exprIssues e.2

/-- What is wrong about the weight of a choice. -/
def weightIssues (weight : Float) : List String :=
  if weight ≤ 0.0 then ["choice weight " ++ Layout.plain.write weight ++ " is not positive"] else []

mutual

/-- What is wrong in an action. -/
def actionIssues (d : Declared) : Action → List String
  | .set id e => d.variableIssues id ++ d.exprIssues e
  | .add id e | .multiply id e => d.numberIssues "target" id ++ d.exprIssues e
  | .branch condition yes no =>
    d.exprIssues condition ++ actionsIssues d yes ++ actionsIssues d no
  | .random [] => ["random action has no choices"]
  | .random choices => choicesIssues d choices
  | .message .. => []
  | .emit _ data => d.entriesIssues data
  | .trigger event params =>
    (if d.events.contains event then [] else ["no event rule listens for " ++ inQuotes event]) ++
      d.entriesIssues params
  | .spawn _ properties => d.entriesIssues properties
  | .forEach _ filter body => (filter.map d.exprIssues).getD [] ++ actionsIssues d body
  | .setProp _ e | .addProp _ e => d.exprIssues e
  | .despawn => []

/-- What is wrong in actions. -/
def actionsIssues (d : Declared) : List Action → List String
  | [] => []
  | a :: as => actionIssues d a ++ actionsIssues d as

/-- What is wrong in the choices of a random action. -/
def choicesIssues (d : Declared) : List Choice → List String
  | [] => []
  | .mk weight as :: cs => weightIssues weight ++ actionsIssues d as ++ choicesIssues d cs

end

end Declared

/-- The name of a timing in messages. -/
def timingTitle : Timing → String
  | .tick => "Tick"
  | .second => "Second"
  | .event => "Event"

/-- What is wrong about the event of a rule. -/
def eventIssues (r : Rule) : List String :=
  match r.timing, r.event with
  | .event, none => ["event rule has no event name"]
  | .event, some _ => []
  | _, none => []
  | timing, some event =>
    ["event " ++ inQuotes event ++ " is ignored on a " ++ timingTitle timing ++ " rule"]

/-- What is wrong in a rule. -/
def ruleIssues (d : Declared) (r : Rule) : List String :=
  eventIssues r ++ (if r.cooldown = some 0 then ["cooldown of 0 has no effect"] else []) ++
    d.exprIssues r.condition ++ d.actionsIssues r.actions

/-- What is wrong in a phase. -/
def phaseIssues (d : Declared) (p : Phase) : List String :=
  d.exprIssues p.trigger ++ d.actionsIssues p.onEnter

/-- What is wrong in a project. -/
def projectIssues (d : Declared) (p : Project) : List String :=
  d.exprIssues p.trigger ++
    p.costs.flatMap (fun c => d.numberIssues "cost resource" c.resource ++ d.exprIssues c.amount) ++
    (if ¬ p.repeatable ∧ p.maxUses.isSome then
      ["max_uses only applies to repeatable projects"] else []) ++
    d.actionsIssues p.effects

/-- The ids that stand in a list for the second time or more, in order. -/
def repeated : List String → List String → List String
  | _, [] => []
  | seen, id :: ids =>
    if seen.contains id then id :: repeated seen ids else repeated (id :: seen) ids

/-- Issues at one place. -/
def issuesAt (what id : String) (messages : List String) : List Issue :=
  messages.map fun message => ⟨what ++ " " ++ inQuotes id, message⟩

/-- The issues of repeated ids. -/
def repeatIssues (what : String) (ids : List String) : List Issue :=
  (repeated [] ids).flatMap fun id => issuesAt what id ["duplicate id"]

/-- All mistakes of a game: first repeated ids, then those in rules, phases, projects and
functions. -/
def issues (g : Game) : List Issue :=
  repeatIssues "state variable" (g.declarations.map VarDecl.id) ++
    repeatIssues "rule" (g.rules.map Rule.id) ++
    repeatIssues "phase" (g.phases.map Phase.id) ++
    repeatIssues "project" (g.projects.map Project.id) ++
    g.rules.flatMap (fun r => issuesAt "rule" r.id (ruleIssues g.declared r)) ++
    g.phases.flatMap (fun p => issuesAt "phase" p.id (phaseIssues g.declared p)) ++
    g.projects.flatMap (fun p => issuesAt "project" p.id (projectIssues g.declared p)) ++
    g.functions.entries.flatMap fun (name, actions) =>
      issuesAt "function" name (g.declared.actionsIssues actions)

end Game

end IdleGame
