/-! Changes of a relational schema, statement by statement. The catalog knows types,
relations, columns and constraints by their names; the data are of any type, and a
rule is what a constraint asks of them. A statement fails if a name that it uses is
missing or taken, if its own work on the data fails, or if a rule that is in force
does not hold of what it leaves. -/

namespace SchemaChanges

structure Column where
  name : String
  type : String
  required : Bool := false
  defaulted : Bool := false
  deriving DecidableEq

structure Relation where
  name : String
  columns : List Column
  deriving DecidableEq

inductive Kind
  | check
  | unique
  | references (relation column : String)
  | plain
  deriving DecidableEq

/-- A constraint, or an index, which `drop index` drops. -/
structure Constraint (Rule : Type) where
  name : String
  relation : String
  columns : List String
  kind : Kind
  index : Bool := false
  rule : Option Rule := none
  deriving DecidableEq

structure Catalog (Rule : Type) where
  types : List String
  relations : List Relation
  constraints : List (Constraint Rule)
  deriving DecidableEq

section Names

variable {Rule : Type}

def Relation.has (relation : Relation) (column : String) : Bool :=
  relation.columns.any fun other => other.name = column

def Constraint.references (constraint : Constraint Rule) (relation : String) : Bool :=
  match constraint.kind with
  | .references target _ => target = relation
  | _ => false

namespace Catalog

variable (catalog : Catalog Rule)

def find (name : String) : Except String Relation :=
  match catalog.relations.find? fun relation => relation.name = name with
  | some relation => .ok relation
  | none => .error s!"relation {name} does not exist"

/-- Relations, constraints and indexes share one space of names. -/
def free (name : String) : Except String Unit :=
  if (catalog.relations.any fun relation => relation.name = name) ||
      catalog.constraints.any fun constraint => constraint.name = name then
    .error s!"relation {name} already exists"
  else .ok ()

def knows (relation : String) (columns : List String) : Except String Unit := do
  let relation ← catalog.find relation
  match columns.find? fun column => !relation.has column with
  | some column => .error s!"column {column} does not exist"
  | none => .ok ()

def typed (type : String) : Except String Unit :=
  if type ∈ catalog.types then .ok () else .error s!"type {type} does not exist"

def rules : List Rule := catalog.constraints.filterMap Constraint.rule

def replace (relation : Relation) : Catalog Rule :=
  { catalog with relations := catalog.relations.map fun other =>
      if other.name = relation.name then relation else other }

def onColumn (relation column : String) (change : Column → Column) : Except String (Catalog Rule) := do
  catalog.knows relation [column]
  let found ← catalog.find relation
  return catalog.replace { found with columns := found.columns.map fun other =>
    if other.name = column then change other else other }

end Catalog

end Names

abbrev Change (Rule : Type) := Catalog Rule → Except String (Catalog Rule)

namespace Change

variable {Rule : Type}

def createType (name : String) : Change Rule := fun catalog =>
  if name ∈ catalog.types then .error s!"type {name} already exists"
  else .ok { catalog with types := catalog.types ++ [name] }

def dropType (name : String) : Change Rule := fun catalog => do
  catalog.typed name
  if catalog.relations.any fun relation => relation.columns.any fun column => column.type = name then
    .error s!"cannot drop type {name} because other objects depend on it"
  else return { catalog with types := catalog.types.filter fun other => other ≠ name }

def renameTable (name new : String) : Change Rule := fun catalog => do
  let relation ← catalog.find name
  catalog.free new
  let rename := fun other => if other = name then new else other
  return { catalog with
    relations := catalog.relations.map fun other =>
      if other.name = name then { relation with name := new } else other
    constraints := catalog.constraints.map fun constraint => { constraint with
      relation := rename constraint.relation
      kind := match constraint.kind with
        | .references target column => .references (rename target) column
        | kind => kind } }

def renameColumn (table name new : String) : Change Rule := fun catalog => do
  let relation ← catalog.find table
  if relation.has new then .error s!"column {new} already exists"
  else
    let renamed ← catalog.onColumn table name fun column => { column with name := new }
    let rename := fun other => if other = name then new else other
    return { renamed with
      constraints := renamed.constraints.map fun constraint => { constraint with
        columns := if constraint.relation = table then constraint.columns.map rename
          else constraint.columns
        kind := match constraint.kind with
          | .references target column =>
              .references target (if target = table then rename column else column)
          | kind => kind } }

def addColumn (table : String) (column : Column) : Change Rule := fun catalog => do
  let relation ← catalog.find table
  catalog.typed column.type
  if relation.has column.name then .error s!"column {column.name} already exists"
  else if column.required && !column.defaulted then
    .error s!"column {column.name} contains null values"
  else return catalog.replace { relation with columns := relation.columns ++ [column] }

/-- The constraints on a column go with it. -/
def dropColumnIfExists (table column : String) : Change Rule := fun catalog => do
  let relation ← catalog.find table
  return { catalog.replace { relation with
        columns := relation.columns.filter fun other => other.name ≠ column } with
    constraints := catalog.constraints.filter fun constraint =>
      !(constraint.relation = table && constraint.columns.contains column) }

def dropColumn (table column : String) : Change Rule := fun catalog => do
  catalog.knows table [column]
  dropColumnIfExists table column catalog

def dropDefault (table column : String) : Change Rule := fun catalog =>
  catalog.onColumn table column fun column => { column with defaulted := false }

def setDefault (table column : String) : Change Rule := fun catalog =>
  catalog.onColumn table column fun column => { column with defaulted := true }

/-- A default of the old type has no cast to another type. -/
def alterType (table column type : String) : Change Rule := fun catalog => do
  catalog.typed type
  let relation ← catalog.find table
  if relation.columns.any fun other => other.name = column && other.defaulted then
    .error s!"default for column {column} cannot be cast automatically to type {type}"
  else catalog.onColumn table column fun column => { column with type }

def renameConstraint (table name new : String) : Change Rule := fun catalog => do
  catalog.free new
  if catalog.constraints.any fun other => other.relation = table && other.name = name && !other.index then
    return { catalog with constraints := catalog.constraints.map fun other =>
      if other.relation = table ∧ other.name = name then { other with name := new } else other }
  else .error s!"constraint {name} does not exist"

def dropConstraintIfExists (table name : String) : Change Rule := fun catalog => do
  let _ ← catalog.find table
  return { catalog with constraints := catalog.constraints.filter fun other =>
    !(other.relation = table && other.name = name && !other.index) }

def dropIndexIfExists (name : String) : Change Rule := fun catalog =>
  .ok { catalog with constraints := catalog.constraints.filter fun other =>
    !(other.name = name && other.index) }

/-- A key that is referenced must be unique. -/
def addConstraint (constraint : Constraint Rule) : Change Rule := fun catalog => do
  catalog.knows constraint.relation constraint.columns
  catalog.free constraint.name
  match constraint.kind with
  | .references relation column =>
      catalog.knows relation [column]
      if catalog.constraints.any fun other =>
          other.relation = relation && other.columns = [column] && other.kind = .unique then
        return { catalog with constraints := catalog.constraints ++ [constraint] }
      else .error s!"there is no unique constraint matching given keys for {relation}"
  | _ => return { catalog with constraints := catalog.constraints ++ [constraint] }

def addConstraints : List (Constraint Rule) → Change Rule
  | [], catalog => .ok catalog
  | constraint :: constraints, catalog => do
      let added ← addConstraint constraint catalog
      addConstraints constraints added

def createTable (relation : Relation) (constraints : List (Constraint Rule)) : Change Rule :=
  fun catalog => do
    catalog.free relation.name
    match relation.columns.find? fun column => column.type ∉ catalog.types with
    | some column => .error s!"type {column.type} does not exist"
    | none =>
        addConstraints constraints { catalog with relations := catalog.relations ++ [relation] }

def dropTable (name : String) : Change Rule := fun catalog => do
  let _ ← catalog.find name
  if catalog.constraints.any fun constraint =>
      constraint.references name && constraint.relation ≠ name then
    .error s!"cannot drop table {name} because other objects depend on it"
  else return { catalog with
    relations := catalog.relations.filter fun relation => relation.name ≠ name
    constraints := catalog.constraints.filter fun constraint => constraint.relation ≠ name }

def uses : List (String × List String) → Change Rule
  | [], catalog => .ok catalog
  | (relation, columns) :: others, catalog => do
      catalog.knows relation columns
      uses others catalog

def compares (table column type : String) : Change Rule := fun catalog => do
  catalog.typed type
  let relation ← catalog.find table
  if relation.columns.any fun other => other.name = column && other.type = type then return catalog
  else .error s!"column {column} is not of type {type}"

def also (first second : Change Rule) : Change Rule := fun catalog => do
  let changed ← first catalog
  second changed

/-- An insert gives every column that needs a value and has no default. -/
def inserts (table : String) (columns : List String) (sources : List (String × List String)) :
    Change Rule := fun catalog => do
  let relation ← catalog.find table
  match relation.columns.find? fun column =>
      column.required && !column.defaulted && !columns.contains column.name with
  | some column => .error s!"null value in column {column.name}"
  | none => uses ((table, columns) :: sources) catalog

end Change

structure Statement (Rule Server Data : Type) where
  change : Change Rule
  write : Server → Data → Except String Data := fun _ data => .ok data

def quiet {Rule Server Data : Type} (change : Change Rule) : Statement Rule Server Data := { change }

structure Segment (Rule Server Data : Type) where
  first : Statement Rule Server Data
  changes : List (Change Rule)

def Segment.statements {Rule Server Data : Type} (segment : Segment Rule Server Data) :
    List (Statement Rule Server Data) :=
  segment.first :: segment.changes.map quiet

structure Database (Rule Data : Type) where
  catalog : Catalog Rule
  data : Data

section Runs

variable {Rule Server Data : Type} (holds : Data → Rule → Bool) (server : Server)

def execute (database : Database Rule Data) (statement : Statement Rule Server Data) :
    Except String (Database Rule Data) := do
  let catalog ← statement.change database.catalog
  let data ← statement.write server database.data
  match catalog.constraints.find? fun constraint => constraint.rule.any fun rule => !holds data rule with
  | some constraint => .error s!"violates constraint {constraint.name}"
  | none => return ⟨catalog, data⟩

def run (statements : List (Statement Rule Server Data)) (database : Database Rule Data) :
    Except String (Database Rule Data) :=
  statements.foldlM (execute holds server) database

def changeAll : List (Statement Rule Server Data) → Change Rule
  | [], catalog => .ok catalog
  | statement :: statements, catalog => do
      let changed ← statement.change catalog
      changeAll statements changed

def rulesAlong : List (Statement Rule Server Data) → Catalog Rule → List Rule
  | [], _ => []
  | statement :: statements, catalog =>
      match statement.change catalog with
      | .ok changed => changed.rules ++ rulesAlong statements changed
      | .error _ => []

variable {holds} {server} {statement : Statement Rule Server Data}
  {statements others : List (Statement Rule Server Data)} {catalog changed last : Catalog Rule}
  {data written : Data}

theorem execute_ok (change : statement.change catalog = .ok changed)
    (write : statement.write server data = .ok written)
    (kept : ∀ rule ∈ changed.rules, holds written rule = true) :
    execute holds server ⟨catalog, data⟩ statement = .ok ⟨changed, written⟩ := by
  have none : (changed.constraints.find? fun constraint =>
      constraint.rule.any fun rule => !holds written rule) = none := by
    rw [List.find?_eq_none]
    intro constraint member
    cases given : constraint.rule with
    | none => simp
    | some rule => simp [kept rule (List.mem_filterMap.mpr ⟨constraint, member, given⟩)]
  simp only [execute, change, write, bind, Except.bind, none]
  rfl

theorem run_cons (first : execute holds server ⟨catalog, data⟩ statement = .ok ⟨changed, written⟩) :
    run holds server (statement :: statements) ⟨catalog, data⟩ =
      run holds server statements ⟨changed, written⟩ := by
  simp [run, List.foldlM_cons, first, bind, Except.bind]

theorem run_append {database next : Database Rule Data}
    (first : run holds server statements database = .ok next) :
    run holds server (statements ++ others) database = run holds server others next := by
  simp only [run, List.foldlM_append] at first ⊢
  rw [first]
  rfl

theorem changeAll_append (first : changeAll statements catalog = .ok changed) :
    changeAll (statements ++ others) catalog = changeAll others changed := by
  induction statements generalizing catalog with
  | nil =>
      cases first
      rfl
  | cons statement statements ih =>
      cases changing : statement.change catalog with
      | error error => simp [changeAll, changing, bind, Except.bind] at first
      | ok next =>
          simp only [changeAll, changing, bind, Except.bind, List.cons_append] at first ⊢
          exact ih first

/-- Statements that leave the data as they are, in force with rules that hold of them. -/
theorem run_quiet (quiet : ∀ statement ∈ statements, statement.write server data = .ok data)
    (change : changeAll statements catalog = .ok last)
    (kept : ∀ rule ∈ rulesAlong statements catalog, holds data rule = true) :
    run holds server statements ⟨catalog, data⟩ = .ok ⟨last, data⟩ := by
  induction statements generalizing catalog with
  | nil =>
      cases change
      rfl
  | cons statement statements ih =>
      cases changing : statement.change catalog with
      | error error => simp [changeAll, changing, bind, Except.bind] at change
      | ok changed =>
          simp only [changeAll, changing, bind, Except.bind] at change
          simp only [rulesAlong, changing, List.mem_append] at kept
          rw [run_cons (execute_ok changing (quiet statement (.head _)) fun rule member =>
            kept rule (.inl member))]
          exact ih (fun other member => quiet other (.tail _ member)) change fun rule member =>
            kept rule (.inr member)

theorem run_step (write : statement.write server data = .ok written)
    (quiet : ∀ statement ∈ statements, statement.write server written = .ok written)
    (change : changeAll (statement :: statements) catalog = .ok last)
    (kept : ∀ rule ∈ rulesAlong (statement :: statements) catalog, holds written rule = true) :
    run holds server (statement :: statements) ⟨catalog, data⟩ = .ok ⟨last, written⟩ := by
  cases changing : statement.change catalog with
  | error error => simp [changeAll, changing, bind, Except.bind] at change
  | ok changed =>
      simp only [changeAll, changing, bind, Except.bind] at change
      simp only [rulesAlong, changing, List.mem_append] at kept
      rw [run_cons (execute_ok changing write fun rule member => kept rule (.inl member))]
      exact run_quiet quiet change fun rule member => kept rule (.inr member)

theorem run_segment {segment : Segment Rule Server Data}
    (write : segment.first.write server data = .ok written)
    (change : changeAll segment.statements catalog = .ok last)
    (kept : ∀ rule ∈ rulesAlong segment.statements catalog, holds written rule = true) :
    run holds server segment.statements ⟨catalog, data⟩ = .ok ⟨last, written⟩ := by
  refine run_step write (fun statement member => ?_) change kept
  obtain ⟨change, -, rfl⟩ := List.mem_map.mp member
  rfl

end Runs

section Plans

variable {Rule Server Data : Type} (holds : Data → Rule → Bool) (server : Server)

/-- Segments with the rules that are not in force while they run: all names are found,
and no rule is in force too early. -/
def planned [DecidableEq Rule] : List (Segment Rule Server Data × List Rule) → Catalog Rule → Bool
  | [], _ => true
  | (segment, pending) :: others, catalog =>
      (rulesAlong segment.statements catalog).all (fun rule => rule ∉ pending) &&
        match changeAll segment.statements catalog with
        | .ok changed => planned others changed
        | .error _ => false

/-- The data from segment to segment, with all rules but the pending ones. -/
inductive Works : List (Segment Rule Server Data × List Rule) → Data → Data → Prop
  | done (data : Data) : Works [] data data
  | segment {segment : Segment Rule Server Data} {pending : List Rule}
      {others : List (Segment Rule Server Data × List Rule)} {data written last : Data}
      (write : segment.first.write server data = .ok written)
      (kept : ∀ rule, rule ∉ pending → holds written rule = true)
      (rest : Works others written last) : Works ((segment, pending) :: others) data last

variable {holds} {server}

theorem works_append {one two : List (Segment Rule Server Data × List Rule)} {data middle last : Data}
    (first : Works holds server one data middle) (second : Works holds server two middle last) :
    Works holds server (one ++ two) data last := by
  induction first with
  | done => exact second
  | segment write kept rest ih => exact .segment write kept (ih second)

theorem run_planned [DecidableEq Rule] {plan : List (Segment Rule Server Data × List Rule)} {catalog : Catalog Rule}
    {data last : Data} (named : planned plan catalog = true) (works : Works holds server plan data last) :
    ∃ changed, changeAll (plan.flatMap fun entry => entry.1.statements) catalog = .ok changed ∧
      run holds server (plan.flatMap fun entry => entry.1.statements) ⟨catalog, data⟩ =
        .ok ⟨changed, last⟩ := by
  induction works generalizing catalog with
  | done => exact ⟨catalog, rfl, rfl⟩
  | @segment segment pending others data written last write kept rest ih =>
      simp only [planned, Bool.and_eq_true, List.all_eq_true, decide_eq_true_eq] at named
      obtain ⟨early, later⟩ := named
      cases change : changeAll segment.statements catalog with
      | error error => simp [change] at later
      | ok changed =>
          rw [change] at later
          obtain ⟨final, names, ran⟩ := ih later
          refine ⟨final, ?_, ?_⟩
          · rw [List.flatMap_cons, changeAll_append change, names]
          · rw [List.flatMap_cons, run_append (run_segment write change fun rule member =>
              kept rule (early rule member)), ran]

end Plans

end SchemaChanges
