import IdleGame.Game.Issue
import IdleGame.Proofs.Game.Authored
import IdleGame.Proofs.Table

/-!
# What a game without issues promises

The search for issues looks at every action at every depth and at every expression. Without issues
every variable that is read is declared, and whatever is added to, scaled or paid from is declared
as a number.

## Main definitions

* `Expr.reads?` - the variable that an expression reads
* `Game.Declared.nodeIssues` - what is wrong in an action itself, the lists within left out

## Main results

* `Game.Declared.actionsIssues_eq_nil_iff` - the search reaches every action within
* `Game.declared_of_authors` - every variable that is read is declared
* `Game.kind_of_writes` - every variable that is written is declared, and keeps its kind
-/

namespace IdleGame

/-- The variable that an expression reads itself. -/
def Expr.reads? : Expr → Option String
  | .ref id | .flag id => some id
  | _ => none

namespace Game

namespace Declared

variable {d : Declared} {role id : String} {e : Expr}

theorem variableIssues_eq_nil_iff : d.variableIssues id = [] ↔ id ∈ d.kinds.keys := by
  rw [← Table.contains_iff]
  unfold variableIssues
  split <;> simp_all

theorem numberIssues_eq_nil_iff :
    d.numberIssues role id = [] ↔ d.kinds.get? id = some .number := by
  unfold numberIssues variableIssues Table.contains
  split <;> simp_all

theorem exprIssues_eq_nil_iff :
    d.exprIssues e = [] ↔ ∀ n ∈ e.nodes, ∀ id, n.reads? = some id → id ∈ d.kinds.keys := by
  unfold exprIssues
  rw [List.flatMap_eq_nil_iff]
  refine forall₂_congr fun n _ => ?_
  cases n <;> simp [Expr.reads?, variableIssues_eq_nil_iff]

theorem entriesIssues_eq_nil_iff {es : List (String × Expr)} :
    d.entriesIssues es = [] ↔ ∀ e ∈ es.map Prod.snd, d.exprIssues e = [] := by
  rw [entriesIssues, List.flatMap_eq_nil_iff, List.forall_mem_map]

/-- What is wrong in an action itself, the lists within left out. -/
def nodeIssues (d : Declared) : Action → List String
  | .set id e => d.variableIssues id ++ d.exprIssues e
  | .add id e | .multiply id e => d.numberIssues "target" id ++ d.exprIssues e
  | .branch condition _ _ => d.exprIssues condition
  | .random [] => ["random action has no choices"]
  | .random choices => choices.flatMap fun c => weightIssues c.weight
  | .message .. => []
  | .emit _ data => d.entriesIssues data
  | .trigger event params =>
    (if d.events.contains event then [] else ["no event rule listens for " ++ inQuotes event]) ++
      d.entriesIssues params
  | .spawn _ properties => d.entriesIssues properties
  | .forEach _ filter _ => (filter.map d.exprIssues).getD []
  | .setProp _ e | .addProp _ e => d.exprIssues e
  | .despawn => []

theorem choicesIssues_eq_nil_iff {choices : List Choice} :
    d.choicesIssues choices = [] ↔
      (∀ c ∈ choices, weightIssues c.weight = []) ∧
        ∀ c ∈ choices, d.actionsIssues c.actions = [] := by
  induction choices with
  | nil => simp [choicesIssues]
  | cons c cs ih =>
    obtain ⟨w, as⟩ := c
    rw [choicesIssues]
    rw [List.append_eq_nil_iff, List.append_eq_nil_iff, ih, List.forall_mem_cons,
      List.forall_mem_cons]
    exact and_and_and_comm

theorem actionIssues_eq_nil_iff {a : Action} :
    d.actionIssues a = [] ↔ d.nodeIssues a = [] ∧ ∀ body ∈ a.bodies, d.actionsIssues body = [] := by
  cases a with
  | random choices =>
    rcases choices with _ | ⟨c, cs⟩
    · simp [actionIssues, nodeIssues]
    · rw [actionIssues, choicesIssues_eq_nil_iff, nodeIssues, Action.bodies,
        List.flatMap_eq_nil_iff, List.forall_mem_map] <;> simp
  | _ => simp [actionIssues, nodeIssues, Action.bodies]

/-- The search for issues reaches every action within. -/
theorem actionsIssues_eq_nil_iff {as : List Action} :
    d.actionsIssues as = [] ↔ ∀ b ∈ Action.nodesOfAll as, d.nodeIssues b = [] := by
  induction as using Action.list_induction with
  | nil => simp [actionsIssues, Action.nodesOfAll]
  | cons a as ihbodies ih =>
    rw [actionsIssues, List.append_eq_nil_iff, actionIssues_eq_nil_iff, ih]
    simp only [Action.mem_nodesOfAll_cons]
    constructor
    · rintro ⟨⟨ha, hbodies⟩, has⟩ b ((rfl | ⟨body, hbody, hb⟩) | hb)
      · exact ha
      · exact (ihbodies body hbody).mp (hbodies body hbody) b hb
      · exact has b hb
    · intro h
      exact ⟨⟨h a (.inl (.inl rfl)), fun body hbody =>
        (ihbodies body hbody).mpr fun b hb => h b (.inl (.inr ⟨body, hbody, hb⟩))⟩,
        fun b hb => h b (.inr hb)⟩

theorem exprIssues_of_nodeIssues {b : Action} (h : d.nodeIssues b = []) (he : e ∈ b.exprs) :
    d.exprIssues e = [] := by
  cases b with
  | forEach kind filter body =>
    obtain rfl : filter = some e := by simpa [Action.exprs] using he
    simpa [nodeIssues] using h
  | emit event data => exact entriesIssues_eq_nil_iff.mp h e he
  | trigger event params =>
    exact entriesIssues_eq_nil_iff.mp (List.append_eq_nil_iff.mp h).2 e he
  | spawn kind properties => exact entriesIssues_eq_nil_iff.mp h e he
  | _ => simp_all [nodeIssues, Action.exprs]

end Declared

theorem repeated_eq_nil_iff {seen ids : List String} :
    repeated seen ids = [] ↔ ids.Nodup ∧ ∀ id ∈ ids, id ∉ seen := by
  induction ids generalizing seen with
  | nil => simp [repeated]
  | cons id ids ih =>
    rw [repeated]
    by_cases hseen : id ∈ seen
    · simp [hseen]
    · rw [if_neg (by simpa using hseen), ih, List.nodup_cons]
      grind

theorem repeatIssues_eq_nil_iff {what : String} {ids : List String} :
    repeatIssues what ids = [] ↔ ids.Nodup := by
  have hissues : ∀ id, issuesAt what id ["duplicate id"] ≠ [] := by simp [issuesAt]
  rw [repeatIssues, List.flatMap_eq_nil_iff]
  simp only [hissues, imp_false]
  rw [← List.eq_nil_iff_forall_not_mem, repeated_eq_nil_iff]
  simp

theorem issuesAt_eq_nil_iff {what id : String} {messages : List String} :
    issuesAt what id messages = [] ↔ messages = [] :=
  List.map_eq_nil_iff

variable {g : Game}

/-- Without issues the ids of each section are distinct, and nothing is wrong in any part. -/
theorem issues_eq_nil_iff :
    g.issues = [] ↔
      (g.declarations.map VarDecl.id).Nodup ∧ (g.rules.map Rule.id).Nodup ∧
        (g.phases.map Phase.id).Nodup ∧ (g.projects.map Project.id).Nodup ∧
        (∀ r ∈ g.rules, ruleIssues g.declared r = []) ∧
        (∀ p ∈ g.phases, phaseIssues g.declared p = []) ∧
        (∀ p ∈ g.projects, projectIssues g.declared p = []) ∧
        ∀ entry ∈ g.functions.entries, g.declared.actionsIssues entry.2 = [] := by
  simp only [issues, List.append_eq_nil_iff, repeatIssues_eq_nil_iff, List.flatMap_eq_nil_iff,
    issuesAt_eq_nil_iff, and_assoc]

theorem actionsIssues_of_lists (h : g.issues = []) {as : List Action} (has : g.Lists as) :
    g.declared.actionsIssues as = [] := by
  obtain ⟨-, -, -, -, hrules, hphases, hprojects, hfunctions⟩ := issues_eq_nil_iff.mp h
  cases has with
  | rule hr => exact (List.append_eq_nil_iff.mp (hrules _ hr)).2
  | entry hp => exact (List.append_eq_nil_iff.mp (hphases _ hp)).2
  | effects hp => exact (List.append_eq_nil_iff.mp (hprojects _ hp)).2
  | function hf => exact hfunctions _ (Table.get?_eq_some_iff.mp hf)

theorem costIssues_of_mem (h : g.issues = []) {p : Project} {c : Cost} (hp : p ∈ g.projects)
    (hc : c ∈ p.costs) :
    g.declared.numberIssues "cost resource" c.resource = [] ∧
      g.declared.exprIssues c.amount = [] := by
  obtain ⟨-, -, -, -, -, -, hprojects, -⟩ := issues_eq_nil_iff.mp h
  have hproject := hprojects p hp
  simp only [projectIssues, List.append_eq_nil_iff, List.flatMap_eq_nil_iff] at hproject
  exact hproject.1.1.2 c hc

theorem exprIssues_of_authors (h : g.issues = []) {e : Expr} (he : g.Authors e) :
    g.declared.exprIssues e = [] := by
  obtain ⟨-, -, -, -, hrules, hphases, hprojects, -⟩ := issues_eq_nil_iff.mp h
  cases he with
  | condition hr =>
    have hrule := hrules _ hr
    simp only [ruleIssues, List.append_eq_nil_iff] at hrule
    exact hrule.1.2
  | phase hp => exact (List.append_eq_nil_iff.mp (hphases _ hp)).1
  | project hp =>
    have hproject := hprojects _ hp
    simp only [projectIssues, List.append_eq_nil_iff] at hproject
    exact hproject.1.1.1
  | amount hp hc => exact (costIssues_of_mem h hp hc).2
  | action has hb he =>
    have hnode := Declared.actionsIssues_eq_nil_iff.mp (actionsIssues_of_lists h has) _ hb
    exact Declared.exprIssues_of_nodeIssues hnode he

/-- Without issues every variable that an expression of the game reads is declared. -/
theorem declared_of_authors (h : g.issues = []) {e n : Expr} {id : String} (he : g.Authors e)
    (hn : n ∈ e.nodes) (hid : n.reads? = some id) : id ∈ g.kinds.keys :=
  Declared.exprIssues_eq_nil_iff.mp (exprIssues_of_authors h he) n hn id hid

/-- Without issues the game writes only declared variables, and values of their kinds. -/
theorem kind_of_writes (h : g.issues = []) {id : String} {v : Value} (hw : g.Writes id v) :
    g.kinds.get? id = some v.kind := by
  cases hw with
  | payment hp hc => exact Declared.numberIssues_eq_nil_iff.mp (costIssues_of_mem h hp hc).1
  | action has hw =>
    obtain ⟨b, hb, hw⟩ := hw
    have hnode := Declared.actionsIssues_eq_nil_iff.mp (actionsIssues_of_lists h has) b hb
    cases hw with
    | set =>
      have hid := Declared.variableIssues_eq_nil_iff.mp (List.append_eq_nil_iff.mp hnode).1
      obtain ⟨k, hk⟩ := Table.mem_keys_iff.mp hid
      change g.kinds.get? id = some k at hk
      simp [Surroundings.coerce, hk]
    | add | multiply =>
      exact Declared.numberIssues_eq_nil_iff.mp (List.append_eq_nil_iff.mp hnode).1

end Game

end IdleGame
