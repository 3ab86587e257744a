import Mathlib.Data.List.Nodup
import IdleGame.Game.Draft
import IdleGame.Proofs.Table

/-!
# Games that are spread over fragments

A fragment is added section by section. This is the same as adding its items one after the other, up
to the first that is there already; so it is known what a draft holds after a fragment has been
refused, and it makes no difference over how many fragments a game is spread.

## Main definitions

* `Item`, `Item.key`, `Fragment.items` - what a fragment adds, and in which order
* `Draft.Extends` - a draft holds some items more than another one
* `Draft.Repeats` - a fragment gives something for the second time
* `Splits` - fragments that hold the sections of a game between them

## Main results

* `Draft.merge_eq_foldlM` - a fragment is added item by item
* `Draft.foldlM_add` - what is added, and where adding stops
* `Draft.fragments_assemble` - distinct ids, refused fragments and split games
-/

namespace IdleGame

/-- One of the things that a fragment says about a game. -/
inductive Item where
  | identity (identity : Identity)
  | config (config : Config)
  | stateVariable (declaration : VarDecl)
  | phase (phase : Phase)
  | rule (rule : Rule)
  | project (project : Project)
  | function (name : String) (actions : List Action)

namespace Item

/-- What an item duplicates if it is given again. -/
def key : Item → Duplicate
  | identity _ => .identity
  | config _ => .config
  | stateVariable v => .stateVariable v.id
  | phase p => .phase p.id
  | rule r => .rule r.id
  | project p => .project p.id
  | function name _ => .function name

/-- The identity that an item is. -/
@[simp] def identity? : Item → Option Identity
  | identity i => some i
  | _ => none

/-- The configuration that an item is. -/
@[simp] def config? : Item → Option Config
  | config c => some c
  | _ => none

/-- The variable that an item is. -/
@[simp] def stateVariable? : Item → Option VarDecl
  | stateVariable v => some v
  | _ => none

/-- The phase that an item is. -/
@[simp] def phase? : Item → Option Phase
  | phase p => some p
  | _ => none

/-- The rule that an item is. -/
@[simp] def rule? : Item → Option Rule
  | rule r => some r
  | _ => none

/-- The project that an item is. -/
@[simp] def project? : Item → Option Project
  | project p => some p
  | _ => none

/-- The name and the actions of the function that an item is. -/
@[simp] def function? : Item → Option (String × List Action)
  | function name actions => some (name, actions)
  | _ => none

/-- Of the items of one section, no two have the same id; and there is at most one identity and one
configuration. -/
@[mk_iff]
structure Distinct (items : List Item) : Prop where
  identity : (items.filterMap identity?).length ≤ 1
  config : (items.filterMap config?).length ≤ 1
  stateVariables : ((items.filterMap stateVariable?).map VarDecl.id).Nodup
  phases : ((items.filterMap phase?).map Phase.id).Nodup
  rules : ((items.filterMap rule?).map Rule.id).Nodup
  projects : ((items.filterMap project?).map Project.id).Nodup
  functions : ((items.filterMap function?).map Prod.fst).Nodup

section Count

variable {items : List Item} {id : String}

/-- A key occurs as often as its id in its section. -/
theorem count_keys {α β : Type} [DecidableEq β] {part : Item → Option α} {id : α → β}
    {kind : β → Duplicate} (h : ∀ item b, item.key = kind b ↔ (part item).map id = some b) (b : β) :
    (items.map key).count (kind b) = ((items.filterMap part).map id).count b := by
  induction items with
  | nil => rfl
  | cons item items ih =>
    rw [List.map_cons, List.count_cons, List.filterMap_cons, ih]
    have hitem := h item b
    rcases hpart : part item with _ | a
    · simpa [hpart] using hitem
    · have hid : item.key = kind b ↔ id a = b := by simpa [hpart] using hitem
      simp [List.count_cons, hid]

theorem count_identity :
    (items.map key).count .identity = (items.filterMap identity?).length := by
  have hkey (item : Item) (b : Unit) :
      item.key = .identity ↔ item.identity?.map (fun _ => ()) = some b := by
    cases item <;> simp [key]
  rw [count_keys hkey (), List.map_const', List.count_replicate_self]

theorem count_config :
    (items.map key).count .config = (items.filterMap config?).length := by
  have hkey (item : Item) (b : Unit) :
      item.key = .config ↔ item.config?.map (fun _ => ()) = some b := by
    cases item <;> simp [key]
  rw [count_keys hkey (), List.map_const', List.count_replicate_self]

theorem count_stateVariable : (items.map key).count (.stateVariable id) =
    ((items.filterMap stateVariable?).map VarDecl.id).count id :=
  count_keys (fun item _ => by cases item <;> simp [key]) id

theorem count_phase : (items.map key).count (.phase id) =
    ((items.filterMap phase?).map Phase.id).count id :=
  count_keys (fun item _ => by cases item <;> simp [key]) id

theorem count_rule : (items.map key).count (.rule id) =
    ((items.filterMap rule?).map Rule.id).count id :=
  count_keys (fun item _ => by cases item <;> simp [key]) id

theorem count_project : (items.map key).count (.project id) =
    ((items.filterMap project?).map Project.id).count id :=
  count_keys (fun item _ => by cases item <;> simp [key]) id

theorem count_function : (items.map key).count (.function id) =
    ((items.filterMap function?).map Prod.fst).count id :=
  count_keys (fun item _ => by cases item <;> simp [key]) id

/-- Keys are distinct if the ids are in each section. -/
theorem nodup_keys_iff : (items.map key).Nodup ↔ Distinct items := by
  simp only [distinct_iff, List.nodup_iff_count_le_one, ← count_identity, ← count_config,
    ← count_stateVariable, ← count_phase, ← count_rule, ← count_project, ← count_function]
  constructor
  · intro h
    exact ⟨h _, h _, fun _ => h _, fun _ => h _, fun _ => h _, fun _ => h _, fun _ => h _⟩
  · rintro ⟨hidentity, hconfig, hvariables, hphases, hrules, hprojects, hfunctions⟩ k
    cases k with
    | identity => exact hidentity
    | config => exact hconfig
    | stateVariable id => exact hvariables id
    | phase id => exact hphases id
    | rule id => exact hrules id
    | project id => exact hprojects id
    | function name => exact hfunctions name

end Count

end Item

namespace Fragment

/-- All that a fragment says, in the order in which it is added. -/
def items (f : Fragment) : List Item :=
  f.identity.toList.map .identity ++ f.config.toList.map .config ++
    f.declarations.map .stateVariable ++ f.phases.map .phase ++ f.rules.map .rule ++
    f.projects.map .project ++ f.functions.entries.map fun e => .function e.1 e.2

section Sections

variable (f : Fragment)

@[simp] theorem filterMap_identity? : f.items.filterMap Item.identity? = f.identity.toList := by
  simp [items, List.filterMap_map, Function.comp_def]

@[simp] theorem filterMap_config? : f.items.filterMap Item.config? = f.config.toList := by
  simp [items, List.filterMap_map, Function.comp_def]

@[simp] theorem filterMap_stateVariable? :
    f.items.filterMap Item.stateVariable? = f.declarations := by
  simp [items, List.filterMap_map, Function.comp_def]

@[simp] theorem filterMap_phase? : f.items.filterMap Item.phase? = f.phases := by
  simp [items, List.filterMap_map, Function.comp_def]

@[simp] theorem filterMap_rule? : f.items.filterMap Item.rule? = f.rules := by
  simp [items, List.filterMap_map, Function.comp_def]

@[simp] theorem filterMap_project? : f.items.filterMap Item.project? = f.projects := by
  simp [items, List.filterMap_map, Function.comp_def]

@[simp] theorem filterMap_function? :
    f.items.filterMap Item.function? = f.functions.entries := by
  simp [items, List.filterMap_map, Function.comp_def]

end Sections

end Fragment

namespace Draft

/-- Puts an item behind those of its section. -/
def place (d : Draft) : Item → Draft
  | .identity identity => { d with identity := some identity }
  | .config config => { d with config := some config }
  | .stateVariable v => { d with declarations := d.declarations ++ [v] }
  | .phase p => { d with phases := d.phases ++ [p] }
  | .rule r => { d with rules := d.rules ++ [r] }
  | .project p => { d with projects := d.projects ++ [p] }
  | .function name actions => { d with functions := d.functions.insert name actions }

/-- Adds an item that is not there. -/
def add (d : Draft) (item : Item) : Except (Duplicate × Draft) Draft :=
  if item.key ∈ d.items.map Item.key then .error (item.key, d) else .ok (d.place item)

section ItemByItem

variable {d : Draft}

theorem addIdentity_eq_foldlM (new : Option Identity) :
    addIdentity new d = (new.toList.map .identity).foldlM add d := by
  rcases new with _ | identity
  · rcases d.identity <;> rfl
  · rcases h : d.identity <;> simp [addIdentity, add, place, Fragment.items, Item.key, h]

theorem addConfig_eq_foldlM (new : Option Config) :
    addConfig new d = (new.toList.map .config).foldlM add d := by
  rcases new with _ | config
  · rcases d.config <;> rfl
  · rcases h : d.config <;> simp [addConfig, add, place, Fragment.items, Item.key, h]

/-- A section of items with ids is added item by item. How it is read from a draft and written back
are parameters. -/
theorem added_addNew_eq_foldlM {α : Type} (id : α → String) (item : α → Item)
    (get : Draft → List α) (set : List α → Draft → Draft)
    (hget : ∀ as d, get (set as d) = as) (hset : ∀ as bs d, set as (set bs d) = set as d)
    (hself : ∀ d, set (get d) d = d) (hplace : ∀ d a, d.place (item a) = set (get d ++ [a]) d)
    (hknown : ∀ (d : Draft) a,
      (item a).key ∈ d.items.map Item.key ↔ (get d).any (id · = id a)) (new : List α) :
    added (fun a => (item a).key) (set (addNew id (get d) new).1 d) (addNew id (get d) new).2 =
      (new.map item).foldlM add d := by
  induction new generalizing d with
  | nil =>
    rw [addNew, hself]
    rfl
  | cons a new ih =>
    rw [List.map_cons, List.foldlM_cons, add, hplace, addNew]
    by_cases ha : (get d).any (id · = id a)
    · rw [if_pos ha, if_pos ((hknown d a).mpr ha), hself]
      rfl
    · rw [if_neg ha, if_neg fun h => ha ((hknown d a).mp h)]
      -- The rest is added to a draft that has the item.
      have hrest := ih (d := set (get d ++ [a]) d)
      rwa [hget, hset] at hrest

theorem addVariables_eq_foldlM (new : List VarDecl) :
    addVariables new d = (new.map .stateVariable).foldlM add d :=
  added_addNew_eq_foldlM VarDecl.id .stateVariable (fun d => d.declarations)
    (fun declarations d => { d with declarations }) (fun _ _ => rfl) (fun _ _ _ => rfl)
    (fun _ => rfl) (fun _ _ => rfl) (fun d v => by simp [Fragment.items, Item.key]) new

theorem addPhases_eq_foldlM (new : List Phase) :
    addPhases new d = (new.map .phase).foldlM add d :=
  added_addNew_eq_foldlM Phase.id .phase (fun d => d.phases)
    (fun phases d => { d with phases }) (fun _ _ => rfl) (fun _ _ _ => rfl)
    (fun _ => rfl) (fun _ _ => rfl) (fun d p => by simp [Fragment.items, Item.key]) new

theorem addRules_eq_foldlM (new : List Rule) :
    addRules new d = (new.map .rule).foldlM add d :=
  added_addNew_eq_foldlM Rule.id .rule (fun d => d.rules)
    (fun rules d => { d with rules }) (fun _ _ => rfl) (fun _ _ _ => rfl)
    (fun _ => rfl) (fun _ _ => rfl) (fun d r => by simp [Fragment.items, Item.key]) new

theorem addProjects_eq_foldlM (new : List Project) :
    addProjects new d = (new.map .project).foldlM add d :=
  added_addNew_eq_foldlM Project.id .project (fun d => d.projects)
    (fun projects d => { d with projects }) (fun _ _ => rfl) (fun _ _ _ => rfl)
    (fun _ => rfl) (fun _ _ => rfl) (fun d p => by simp [Fragment.items, Item.key]) new

theorem addFunctionTable_eq_foldlM (new : Table (List Action)) :
    addFunctionTable new d = (new.entries.map fun e => .function e.1 e.2).foldlM add d := by
  -- That the names in the table are distinct plays no part, so any entries will do.
  suffices h : ∀ es, added .function
      { d with functions := (addFunctions d.functions es).1 } (addFunctions d.functions es).2 =
        (es.map fun e => Item.function e.1 e.2).foldlM add d from h new.entries
  intro es
  induction es generalizing d with
  | nil => rfl
  | cons e es ih =>
    obtain ⟨name, actions⟩ := e
    have hknown : Item.key (.function name actions) ∈ d.items.map Item.key ↔
        d.functions.contains name := by
      rw [Table.contains_iff]
      simp [Fragment.items, Item.key, Table.keys]
    rw [List.map_cons, List.foldlM_cons, add, addFunctions]
    by_cases hname : d.functions.contains name
    · rw [if_pos hname, if_pos (hknown.mpr hname)]
      rfl
    · rw [if_neg hname, if_neg fun h => hname (hknown.mp h)]
      exact ih (d := d.place (.function name actions))

/-- A fragment is added item by item, up to the first that is there. -/
theorem merge_eq_foldlM (f : Fragment) : d.merge f = f.items.foldlM add d := by
  simp only [merge, Fragment.items, List.foldlM_append, bind_assoc, addIdentity_eq_foldlM,
    addConfig_eq_foldlM, addVariables_eq_foldlM, addPhases_eq_foldlM, addRules_eq_foldlM,
    addProjects_eq_foldlM, addFunctionTable_eq_foldlM]

/-- Fragments are added one after the other like all that they say. -/
theorem foldlM_merge_eq_foldlM (fs : List Fragment) :
    fs.foldlM (fun d f => d.merge f) d = (fs.flatMap Fragment.items).foldlM add d := by
  induction fs generalizing d with
  | nil => rfl
  | cons f fs ih =>
    rw [List.foldlM_cons, List.flatMap_cons, List.foldlM_append, merge_eq_foldlM]
    simp only [ih]

end ItemByItem

/-- A draft holds what another one holds and, behind it in each section, those of some items that
belong there. -/
structure Extends (d : Draft) (items : List Item) (d' : Draft) : Prop where
  identity : d'.identity.toList = d.identity.toList ++ items.filterMap Item.identity?
  config : d'.config.toList = d.config.toList ++ items.filterMap Item.config?
  declarations : d'.declarations = d.declarations ++ items.filterMap Item.stateVariable?
  phases : d'.phases = d.phases ++ items.filterMap Item.phase?
  rules : d'.rules = d.rules ++ items.filterMap Item.rule?
  projects : d'.projects = d.projects ++ items.filterMap Item.project?
  functions : d'.functions.entries = d.functions.entries ++ items.filterMap Item.function?

section Run

open List (Perm)

variable {d d' d'' : Draft} {item : Item} {items items' : List Item}

theorem extends_nil : d.Extends [] d := by
  constructor <;> simp

theorem Extends.trans (h : d.Extends items d') (h' : d'.Extends items' d'') :
    d.Extends (items ++ items') d'' := by
  constructor
  · rw [h'.identity, h.identity, List.filterMap_append, List.append_assoc]
  · rw [h'.config, h.config, List.filterMap_append, List.append_assoc]
  · rw [h'.declarations, h.declarations, List.filterMap_append, List.append_assoc]
  · rw [h'.phases, h.phases, List.filterMap_append, List.append_assoc]
  · rw [h'.rules, h.rules, List.filterMap_append, List.append_assoc]
  · rw [h'.projects, h.projects, List.filterMap_append, List.append_assoc]
  · rw [h'.functions, h.functions, List.filterMap_append, List.append_assoc]

theorem extends_place (hnew : item.key ∉ d.items.map Item.key) :
    d.Extends [item] (d.place item) := by
  cases item with
  -- Over an identity that is there, the new one would take its place instead of standing behind it.
  | identity identity =>
    have hnone : d.identity = none :=
      Option.eq_none_iff_forall_ne_some.mpr (by simpa [Fragment.items, Item.key] using hnew)
    constructor <;> simp [place, hnone]
  | config config =>
    have hnone : d.config = none :=
      Option.eq_none_iff_forall_ne_some.mpr (by simpa [Fragment.items, Item.key] using hnew)
    constructor <;> simp [place, hnone]
  -- Items with ids stand in lists, where nothing is replaced.
  | stateVariable _ | phase _ | rule _ | project _ => constructor <;> simp [place]
  | function name actions =>
    have hname : name ∉ d.functions.entries.map Prod.fst := by
      simpa [Fragment.items, Item.key] using hnew
    constructor <;> simp [place, Entries.insert_of_notMem hname]

/-- What is there afterwards has the keys of what was there and of what has been added. -/
theorem Extends.perm_keys (h : d.Extends items d') :
    Perm (d'.items.map Item.key) ((d.items ++ items).map Item.key) := by
  rw [List.perm_iff_count]
  intro k
  -- How often a key occurs can be read off its section.
  cases k with
  | identity =>
    simp only [Item.count_identity, List.filterMap_append, Fragment.filterMap_identity?, h.identity]
  | config =>
    simp only [Item.count_config, List.filterMap_append, Fragment.filterMap_config?, h.config]
  | stateVariable id =>
    simp only [Item.count_stateVariable, List.filterMap_append, Fragment.filterMap_stateVariable?,
      h.declarations]
  | phase id =>
    simp only [Item.count_phase, List.filterMap_append, Fragment.filterMap_phase?, h.phases]
  | rule id => simp only [Item.count_rule, List.filterMap_append, Fragment.filterMap_rule?, h.rules]
  | project id =>
    simp only [Item.count_project, List.filterMap_append, Fragment.filterMap_project?, h.projects]
  | function name =>
    simp only [Item.count_function, List.filterMap_append, Fragment.filterMap_function?,
      h.functions]

/-- Items that are all added are there afterwards. -/
theorem extends_of_foldlM_add (h : items.foldlM add d = .ok d') : d.Extends items d' := by
  induction items generalizing d with
  | nil =>
    obtain rfl := Except.ok.inj h
    exact extends_nil
  | cons item items ih =>
    rw [List.foldlM_cons, add] at h
    split at h
    · cases h
    · rename_i hnew
      exact (extends_place hnew).trans (ih h)

/-- Some items are new to a draft and to each other, and the next one is not. -/
structure StopsAt (d : Draft) (items before : List Item) (item : Item) : Prop where
  starts : before ++ [item] <+: items
  new : ((d.items ++ before).map Item.key).Nodup
  known : item.key ∈ (d.items ++ before).map Item.key

/-- If all items are new to a draft and to each other, all of them are added. Otherwise those in
front of the first that is not are. -/
theorem foldlM_add (hnodup : (d.items.map Item.key).Nodup) (items : List Item) :
    (((d.items ++ items).map Item.key).Nodup ∧
        ∃ d', items.foldlM add d = .ok d' ∧ d.Extends items d') ∨
      ∃ before item d', d.StopsAt items before item ∧
        items.foldlM add d = .error (item.key, d') ∧ d.Extends before d' := by
  -- The induction is on the items that are left; the draft grows by those that have been added.
  induction items generalizing d with
  | nil => exact .inl ⟨by rwa [List.append_nil], d, rfl, extends_nil⟩
  | cons item items ih =>
    rw [List.foldlM_cons, add]
    by_cases hitem : item.key ∈ d.items.map Item.key
    · have hstops : d.StopsAt (item :: items) [] item :=
        ⟨by simp, by simpa using hnodup, by simpa using hitem⟩
      rw [if_pos hitem]
      exact .inr ⟨[], item, d, hstops, rfl, extends_nil⟩
    · rw [if_neg hitem]
      have hplace := extends_place hitem
      -- The keys that the rest has to be new to are the same before and after.
      have hkeys (rest : List Item) : Perm (((d.place item).items ++ rest).map Item.key)
          ((d.items ++ item :: rest).map Item.key) := by
        have hrest := hplace.perm_keys.append_right (rest.map Item.key)
        simpa using hrest
      have hplaced : ((d.place item).items.map Item.key).Nodup := by
        rw [hplace.perm_keys.nodup_iff]
        simpa using hnodup.concat hitem
      rcases ih hplaced with
        ⟨hnew, d', hrun, hextends⟩ | ⟨before, item', d', hstops, hrun, hextends⟩
      · exact .inl ⟨(hkeys items).nodup_iff.mp hnew, d', hrun, hplace.trans hextends⟩
      · obtain ⟨hstarts, hnew, hknown⟩ := hstops
        refine .inr ⟨item :: before, item', d', ⟨?_, ?_, ?_⟩, hrun, hplace.trans hextends⟩
        · simpa using hstarts
        · exact (hkeys before).nodup_iff.mp hnew
        · exact (hkeys before).mem_iff.mp hknown

theorem StopsAt.not_nodup {before : List Item} (h : d.StopsAt items before item) :
    ¬ ((d.items ++ items).map Item.key).Nodup := by
  intro hnodup
  obtain ⟨rest, rfl⟩ := h.starts
  -- The key of the item stands once in front of it and once at its place.
  have hsplit : (d.items ++ (before ++ [item] ++ rest)).map Item.key =
      (d.items ++ before).map Item.key ++ item.key :: rest.map Item.key := by simp
  rw [hsplit, List.nodup_append] at hnodup
  exact hnodup.2.2 _ h.known _ List.mem_cons_self rfl

end Run

/-- The draft after a fragment has been added as far as it can be. -/
def feed (d : Draft) (f : Fragment) : Draft :=
  match d.merge f with
  | .ok d' => d'
  | .error (_, d') => d'

/-- None of some fragments is refused when they are added one after the other. -/
def AllAdded (fs : List Fragment) : Prop :=
  ∃ d, fs.foldlM (fun d f => d.merge f) empty = .ok d

/-- A fragment gives for the second time the identity, the configuration, or an id: one that is
there, or one that stands in the fragment twice. -/
def Repeats (d : Draft) (f : Fragment) : Prop :=
  (d.identity.isSome ∧ f.identity.isSome) ∨ (d.config.isSome ∧ f.config.isSome) ∨
    ¬ ((d.declarations ++ f.declarations).map VarDecl.id).Nodup ∨
    ¬ ((d.phases ++ f.phases).map Phase.id).Nodup ∨
    ¬ ((d.rules ++ f.rules).map Rule.id).Nodup ∨
    ¬ ((d.projects ++ f.projects).map Project.id).Nodup ∨
    ∃ name ∈ f.functions.keys, name ∈ d.functions.keys

end Draft

/-- No two items of a section have the same id. -/
structure Sections.Distinct (s : Sections) : Prop where
  declarations : (s.declarations.map VarDecl.id).Nodup
  phases : (s.phases.map Phase.id).Nodup
  rules : (s.rules.map Rule.id).Nodup
  projects : (s.projects.map Project.id).Nodup
  functions : s.functions.keys.Nodup

theorem Sections.ext_entries {s s' : Sections} (hdeclarations : s.declarations = s'.declarations)
    (hphases : s.phases = s'.phases) (hrules : s.rules = s'.rules)
    (hprojects : s.projects = s'.projects)
    (hfunctions : s.functions.entries = s'.functions.entries) : s = s' := by
  obtain ⟨_, _, _, _, ⟨_, _⟩⟩ := s
  obtain ⟨_, _, _, _, ⟨_, _⟩⟩ := s'
  subst hdeclarations hphases hrules hprojects hfunctions
  rfl

/-- Fragments that hold each section of a game between them, in order. -/
structure Splits (fs : List Fragment) (g : Game) : Prop where
  identity : fs.flatMap (·.identity.toList) = [g.identity]
  config : ∃ config : Option Config,
    fs.flatMap (·.config.toList) = config.toList ∧ g.config = config.getD {}
  declarations : fs.flatMap (·.declarations) = g.declarations
  phases : fs.flatMap (·.phases) = g.phases
  rules : fs.flatMap (·.rules) = g.rules
  projects : fs.flatMap (·.projects) = g.projects
  functions : fs.flatMap (·.functions.entries) = g.functions.entries

namespace Draft

variable {d d' : Draft} {f : Fragment} {fs : List Fragment} {g : Game}

theorem length_toList_append_le_one_iff {α : Type} {a b : Option α} :
    (a.toList ++ b.toList).length ≤ 1 ↔ ¬ (a.isSome ∧ b.isSome) := by
  rcases a with _ | _ <;> rcases b with _ | _ <;> simp

theorem nodup_keys_append_iff : ((d.items ++ f.items).map Item.key).Nodup ↔ ¬ d.Repeats f := by
  have hfunctions : ((d.functions.entries ++ f.functions.entries).map Prod.fst).Nodup ↔
      ¬ ∃ name ∈ f.functions.keys, name ∈ d.functions.keys := by
    rw [List.map_append, List.nodup_append]
    constructor
    · rintro ⟨-, -, hne⟩ ⟨name, hf, hd⟩
      exact hne name hd name hf rfl
    · intro h
      refine ⟨d.functions.distinct, f.functions.distinct, ?_⟩
      rintro name hd _ hf rfl
      exact h ⟨name, hf, hd⟩
  rw [Item.nodup_keys_iff, Item.distinct_iff]
  simp only [List.filterMap_append, Fragment.filterMap_identity?, Fragment.filterMap_config?,
    Fragment.filterMap_stateVariable?, Fragment.filterMap_phase?, Fragment.filterMap_rule?,
    Fragment.filterMap_project?, Fragment.filterMap_function?, length_toList_append_le_one_iff,
    hfunctions, Repeats, not_or, not_not]

theorem distinct_of_nodup_keys (h : (d.items.map Item.key).Nodup) : d.toSections.Distinct := by
  have hitems := Item.nodup_keys_iff.mp h
  constructor
  · simpa using hitems.stateVariables
  · simpa using hitems.phases
  · simpa using hitems.rules
  · simpa using hitems.projects
  · exact d.functions.distinct

theorem nodup_keys_feed (h : (d.items.map Item.key).Nodup) :
    ((d.feed f).items.map Item.key).Nodup := by
  rw [feed, merge_eq_foldlM]
  rcases foldlM_add h f.items with
    ⟨hnew, d', hrun, hextends⟩ | ⟨before, item, d', hstops, hrun, hextends⟩
  · rw [hrun]
    exact hextends.perm_keys.nodup_iff.mpr hnew
  · rw [hrun]
    exact hextends.perm_keys.nodup_iff.mpr hstops.new

theorem nodup_keys_foldl_feed (h : (d.items.map Item.key).Nodup) :
    ((fs.foldl feed d).items.map Item.key).Nodup := by
  induction fs generalizing d with
  | nil => exact h
  | cons f fs ih => exact ih (nodup_keys_feed h)

theorem nodup_keys_empty : (empty.items.map Item.key).Nodup := List.nodup_nil

/-- Fragments that are all added have distinct keys. -/
theorem allAdded_iff_nodup_keys :
    AllAdded fs ↔ ((fs.flatMap Fragment.items).map Item.key).Nodup := by
  rw [AllAdded, foldlM_merge_eq_foldlM]
  rcases foldlM_add nodup_keys_empty (fs.flatMap Fragment.items) with
    ⟨hnew, d, hrun, -⟩ | ⟨before, item, d, hstops, hrun, -⟩
  · exact ⟨fun _ => hnew, fun _ => ⟨d, hrun⟩⟩
  · refine ⟨fun ⟨d', hd'⟩ => ?_, fun hnew => absurd hnew hstops.not_nodup⟩
    rw [hrun] at hd'
    cases hd'

theorem foldl_feed_eq (h : fs.foldlM (fun d f => d.merge f) d = .ok d') :
    fs.foldl feed d = d' := by
  induction fs generalizing d with
  | nil => exact Except.ok.inj h
  | cons f fs ih =>
    rw [List.foldlM_cons] at h
    rcases hf : d.merge f with e | d₁
    · rw [hf] at h
      cases h
    · rw [hf] at h
      have hfeed : d.feed f = d₁ := by rw [feed, hf]
      rw [List.foldl_cons, hfeed]
      exact ih h

/-- If all fragments are added, all that they say is there. -/
theorem AllAdded.extends (h : AllAdded fs) :
    empty.Extends (fs.flatMap Fragment.items) (fs.foldl feed empty) := by
  obtain ⟨d, hd⟩ := h
  rw [foldl_feed_eq hd]
  rw [foldlM_merge_eq_foldlM] at hd
  exact extends_of_foldlM_add hd

theorem AllAdded.flatMap_identity (h : AllAdded fs) :
    fs.flatMap (·.identity.toList) = (fs.foldl feed empty).identity.toList := by
  rw [h.extends.identity]
  simp [empty, List.filterMap_flatMap]

theorem finish_eq_ok_iff : d.finish = .ok g ↔
    d.identity = some g.identity ∧ d.config.getD {} = g.config ∧ d.toSections = g.toSections := by
  obtain ⟨sections, identity, config⟩ := g
  rcases h : d.identity with _ | identity'
  · simp [finish, h]
  · simp only [finish, h, Except.ok.injEq, Game.mk.injEq, Option.some.injEq]
    tauto

/-- What is finished is the game that the fragments hold between them. -/
theorem AllAdded.finish_eq_ok_iff_splits (h : AllAdded fs) :
    (fs.foldl feed empty).finish = .ok g ↔ Splits fs g := by
  have hidentity := h.flatMap_identity
  have hextends := h.extends
  generalize fs.foldl feed empty = d at *
  have hconfig : fs.flatMap (·.config.toList) = d.config.toList := by
    simp [hextends.config, empty, List.filterMap_flatMap]
  have hdeclarations : fs.flatMap (·.declarations) = d.declarations := by
    simp [hextends.declarations, empty, List.filterMap_flatMap]
  have hphases : fs.flatMap (·.phases) = d.phases := by
    simp [hextends.phases, empty, List.filterMap_flatMap]
  have hrules : fs.flatMap (·.rules) = d.rules := by
    simp [hextends.rules, empty, List.filterMap_flatMap]
  have hprojects : fs.flatMap (·.projects) = d.projects := by
    simp [hextends.projects, empty, List.filterMap_flatMap]
  have hfunctions : fs.flatMap (·.functions.entries) = d.functions.entries := by
    simp [hextends.functions, empty, Table.empty, List.filterMap_flatMap]
  rw [finish_eq_ok_iff]
  constructor
  · rintro ⟨hid, hdefault, hsections⟩
    rw [hid] at hidentity
    rw [hsections] at hdeclarations hphases hrules hprojects hfunctions
    exact ⟨hidentity, ⟨d.config, hconfig, hdefault.symm⟩, hdeclarations, hphases, hrules, hprojects,
      hfunctions⟩
  · intro hs
    obtain ⟨config, hbrought, hdefault⟩ := hs.config
    refine ⟨?_, ?_, ?_⟩
    · exact Option.toList_eq_singleton_iff.mp (hidentity.symm.trans hs.identity)
    · have hsame : d.config = config := by
        simpa using congrArg List.head? (hconfig.symm.trans hbrought)
      rw [hsame, hdefault]
    · apply Sections.ext_entries
      · exact hdeclarations.symm.trans hs.declarations
      · exact hphases.symm.trans hs.phases
      · exact hrules.symm.trans hs.rules
      · exact hprojects.symm.trans hs.projects
      · exact hfunctions.symm.trans hs.functions

/-- If all fragments are added and one of them says which game it is, there is a game. -/
theorem AllAdded.exists_finish (h : AllAdded fs) (hidentity : ∃ f ∈ fs, f.identity.isSome) :
    ∃ g, (fs.foldl feed empty).finish = .ok g := by
  obtain ⟨f, hf, hsome⟩ := hidentity
  obtain ⟨identity, hidentity⟩ := Option.isSome_iff_exists.mp hsome
  have hmem : identity ∈ (fs.foldl feed empty).identity.toList := by
    rw [← h.flatMap_identity, List.mem_flatMap]
    exact ⟨f, hf, Option.mem_toList.mpr hidentity⟩
  have hbrought : (fs.foldl feed empty).identity = some identity := Option.mem_toList.mp hmem
  rw [finish, hbrought]
  exact ⟨_, rfl⟩

/-- Fragments that hold a game between them are all added exactly if its ids are distinct. -/
theorem allAdded_iff_distinct (h : Splits fs g) : AllAdded fs ↔ g.toSections.Distinct := by
  obtain ⟨config, hbrought, -⟩ := h.config
  have hidentity : ((fs.flatMap Fragment.items).filterMap Item.identity?).length ≤ 1 := by
    simp [List.filterMap_flatMap, h.identity]
  have hconfig : ((fs.flatMap Fragment.items).filterMap Item.config?).length ≤ 1 := by
    rcases config <;> simp [List.filterMap_flatMap, hbrought]
  rw [allAdded_iff_nodup_keys, Item.nodup_keys_iff]
  constructor
  · intro hitems
    constructor
    · simpa [List.filterMap_flatMap, h.declarations] using hitems.stateVariables
    · simpa [List.filterMap_flatMap, h.phases] using hitems.phases
    · simpa [List.filterMap_flatMap, h.rules] using hitems.rules
    · simpa [List.filterMap_flatMap, h.projects] using hitems.projects
    · exact g.functions.distinct
  · intro hsections
    refine ⟨hidentity, hconfig, ?_, ?_, ?_, ?_, ?_⟩
    · simpa [List.filterMap_flatMap, h.declarations] using hsections.declarations
    · simpa [List.filterMap_flatMap, h.phases] using hsections.phases
    · simpa [List.filterMap_flatMap, h.rules] using hsections.rules
    · simpa [List.filterMap_flatMap, h.projects] using hsections.projects
    · simpa [List.filterMap_flatMap, h.functions] using g.functions.distinct

/-- Whatever fragments are added to a draft one after the other, the ids in each of its sections are
distinct. Another fragment is refused exactly if it repeats something. Then what stands in front of
its first item that is there already has been added, and otherwise all of it. If no fragment is
refused and one of them says which game it is, the game holds their sections one behind the other.
So all ways to spread a game over fragments end in that game, if its ids are distinct, and none of
them is accepted otherwise. -/
theorem fragments_assemble (fs : List Fragment) :
    (fs.foldl feed empty).toSections.Distinct ∧
      (∀ f, ¬ (fs.foldl feed empty).Repeats f →
        ∃ d, (fs.foldl feed empty).merge f = .ok d ∧ (fs.foldl feed empty).Extends f.items d) ∧
      (∀ f, (fs.foldl feed empty).Repeats f →
        ∃ before item d, (fs.foldl feed empty).StopsAt f.items before item ∧
          (fs.foldl feed empty).merge f = .error (item.key, d) ∧
          (fs.foldl feed empty).Extends before d) ∧
      (AllAdded fs → (∃ f ∈ fs, f.identity.isSome) →
        ∃ g, (fs.foldl feed empty).finish = .ok g ∧ Splits fs g) ∧
      ∀ g, Splits fs g → (AllAdded fs ↔ g.toSections.Distinct) ∧
        (AllAdded fs → (fs.foldl feed empty).finish = .ok g) := by
  have hnodup : ((fs.foldl feed empty).items.map Item.key).Nodup :=
    nodup_keys_foldl_feed nodup_keys_empty
  refine ⟨distinct_of_nodup_keys hnodup, ?_, ?_, ?_, ?_⟩
  · intro f hf
    rw [merge_eq_foldlM]
    rcases foldlM_add hnodup f.items with ⟨-, d, hrun, hextends⟩ | ⟨_, _, _, hstops, -, -⟩
    · exact ⟨d, hrun, hextends⟩
    · exact absurd (nodup_keys_append_iff.mpr hf) hstops.not_nodup
  · intro f hf
    rw [merge_eq_foldlM]
    rcases foldlM_add hnodup f.items with ⟨hnew, -⟩ | hstops
    · exact absurd hf (nodup_keys_append_iff.mp hnew)
    · exact hstops
  · intro hadded hidentity
    obtain ⟨g, hg⟩ := hadded.exists_finish hidentity
    exact ⟨g, hg, hadded.finish_eq_ok_iff_splits.mp hg⟩
  · intro g hg
    exact ⟨allAdded_iff_distinct hg, fun hadded => hadded.finish_eq_ok_iff_splits.mpr hg⟩

/-- Which game the garden is, and one of its variables. -/
def gardenHead : Fragment where
  identity := some { id := "garden", name := "Garden" }
  config := none
  declarations := [{ id := "seeds" }]

/-- Another variable of the garden. -/
def gardenRest : Fragment where
  identity := none
  config := none
  declarations := [{ id := "pots" }]

/-- A variable that is there already stands between two that are not. -/
def gardenAgain : Fragment where
  identity := none
  config := none
  declarations := [{ id := "rows" }, { id := "seeds" }, { id := "weeds" }]

/-- The garden as a whole. -/
def garden : Game where
  identity := { id := "garden", name := "Garden" }
  declarations := [{ id := "seeds" }, { id := "pots" }]

/-- The garden is put together from two fragments. A third one is refused for the variable that it
repeats, and the variable in front of it has been added. -/
theorem garden_assembles :
    Splits [gardenHead, gardenRest] garden ∧ AllAdded [gardenHead, gardenRest] ∧
      ([gardenHead, gardenRest].foldl feed empty).finish = .ok garden ∧
      ∃ before item d,
        ([gardenHead, gardenRest].foldl feed empty).StopsAt gardenAgain.items before item ∧
          ([gardenHead, gardenRest].foldl feed empty).merge gardenAgain = .error (item.key, d) ∧
          item.key = .stateVariable "seeds" ∧
          d.declarations = garden.declarations ++ [{ id := "rows" }] := by
  have hsplits : Splits [gardenHead, gardenRest] garden :=
    ⟨rfl, ⟨none, rfl, rfl⟩, rfl, rfl, rfl, rfl, rfl⟩
  have hdistinct : garden.toSections.Distinct := by
    constructor <;> decide +kernel
  have hrepeats : ([gardenHead, gardenRest].foldl feed empty).Repeats gardenAgain :=
    .inr (.inr (.inl (by decide +kernel)))
  obtain ⟨-, -, hrefused, -, hassembled⟩ := fragments_assemble [gardenHead, gardenRest]
  obtain ⟨hadded, hfinish⟩ := hassembled garden hsplits
  obtain ⟨before, item, d, hstops, hmerge, -⟩ := hrefused gardenAgain hrepeats
  obtain ⟨d', hrun, hheld⟩ :
      ∃ d', ([gardenHead, gardenRest].foldl feed empty).merge gardenAgain =
          .error (.stateVariable "seeds", d') ∧
        d'.declarations = garden.declarations ++ [{ id := "rows" }] := ⟨_, rfl, rfl⟩
  obtain ⟨hkey, rfl⟩ := Prod.mk.inj (Except.error.inj (hmerge.symm.trans hrun))
  exact ⟨hsplits, hadded.mpr hdistinct, hfinish (hadded.mpr hdistinct), before, item, d, hstops,
    hmerge, hkey, hheld⟩

end Draft

end IdleGame
