import FactCube.Cli.Arguments
import FactCube.Query.Plan
import FactCube.Source.Delimiter
import FactCube.Store.Loading

/-!
# Commands

The first argument names a command and the others are its options. Arguments that do not fit the
options, or values that do not fit an option, make no command.
-/

namespace FactCube.Cli

/-! ## What a command asks for -/

/-- The rows to load: the model, the file, and how to read it. -/
structure Source where
  model : String
  input : String
  mode : LoadMode
  workers : Nat
  delimiter? : Option UInt8
  encoding? : Option String
deriving DecidableEq

/-- A query as it is written in the arguments. -/
structure QueryTexts where
  drilldowns : List String
  cuts : List String
  slice : List String
  measures : List String
  order : List String
  page : Nat
  pageSize? : Option Nat
deriving DecidableEq

/-- The query its texts stand for; the first text that cannot be read counts. -/
def QueryTexts.read (texts : QueryTexts) : Except MalformedText Query := do
  let cuts ← texts.cuts.mapM Cut.ofText
  let slice ← texts.slice.mapM Condition.groupOfText
  let order ← texts.order.mapM OrderKey.ofText
  .ok
    { drilldowns := texts.drilldowns
      cuts := cuts
      slice := slice
      measures := texts.measures
      order := order
      page := texts.page
      pageSize? := texts.pageSize?
      collection? := none }

/-- What is aggregated: the facts of a named view, or those of a query. -/
inductive Question
  | view (entity name : String) (dimension? member? : Option String)
  | query (texts : QueryTexts)
deriving DecidableEq

/-- A command with everything it needs. -/
inductive Command
  /-- Tell the version. -/
  | version
  /-- Check a model and report every violation. -/
  | validate (model : String)
  /-- List the dimensions and views of a model. -/
  | views (model : String)
  /-- Map rows into facts, perhaps writing them to a file. -/
  | load (source : Source) (output? : Option String)
  /-- Aggregate the facts of some rows. -/
  | aggregate (source : Source) (question : Question) (asJson : Bool)
  /-- List the classifier entries of a taxonomy, at one level or at all of them. -/
  | taxonomy (source : Source) (name : String) (level? : Option Nat)
deriving DecidableEq

/-! ## Values of options -/

/-- A file name must not be empty. -/
def fileNameOf? (s : String) : Option String := if s.isEmpty then none else some s

/-- A text as it stands. -/
def anyText? (s : String) : Option String := some s

/-- A count of at most 64 bits. -/
def countOf? (s : String) : Option Nat := Decimal.count? Decimal.greatest64 s.toList

/-- A level: an integer that is not negative and has at most 32 bits. -/
def levelOf? (s : String) : Option Nat :=
  match Decimal.integer? s.toList with
  | some n => if 0 ≤ n ∧ n ≤ Decimal.greatest32 then some n.toNat else none
  | none => none

/-- A delimiter by its name or as it is. -/
def delimiterOf? (s : String) : Option UInt8 := (Delimiter.ofText s).toOption

/-! ## Options of the commands -/

/-- An option with a value that may be given once. -/
def single (name : String) : OptionRule := ⟨name, none, .single⟩

/-- An option with a value that may be given again and again. -/
def repeated (name : String) : OptionRule := ⟨name, none, .repeated⟩

/-- The option for the model. -/
def modelRule : OptionRule := ⟨"model", some 'm', .single⟩

/-- The options for the rows. -/
def sourceRules : List OptionRule :=
  [modelRule, ⟨"input", some 'i', .single⟩, single "mode", single "workers", single "delimiter",
    single "input-encoding"]

/-- The options of the aggregation. -/
def aggregateRules : List OptionRule :=
  sourceRules ++
    [single "view", single "entity", single "dimension", single "member", repeated "drilldown",
      repeated "cut", repeated "slice", repeated "measure", repeated "order", single "page",
      single "pagesize", ⟨"json", none, .flag⟩]

/-- The options that can only stand in a query, not beside a view. -/
def queryOnly : List String := ["drilldown", "cut", "slice", "order", "page"]

/-- The options that need a view. Where an option of a query rules a view out they are not used. -/
def viewOnly : List String := ["entity", "dimension", "member"]

/-! ## Reading commands -/

/-- The rows that options ask for. -/
def Source.ofOptions? (given : List Given) : Option Source := do
  let model ← required? given "model" fileNameOf?
  let input ← required? given "input" fileNameOf?
  let mode ← required? given "mode" LoadMode.ofName?
  let workers ← optional? given "workers" countOf?
  let delimiter ← optional? given "delimiter" delimiterOf?
  let encoding ← optional? given "input-encoding" anyText?
  some ⟨model, input, mode, workers.getD 1, delimiter, encoding⟩

/-- The view or query that options ask for. -/
def Question.ofOptions? (given : List Given) : Option Question := do
  let page ← optional? given "page" countOf?
  let pageSize ← optional? given "pagesize" countOf?
  match (valuesOf given "view").head? with
  | some name =>
    if queryOnly.any (isGiven given) then none
    else
      some (.view ((valuesOf given "entity").head?.getD datasetSubject) name
        (valuesOf given "dimension").head? (valuesOf given "member").head?)
  | none =>
    if viewOnly.any (isGiven given) && !queryOnly.any (isGiven given) then none
    else
      some (.query
        { drilldowns := valuesOf given "drilldown"
          cuts := valuesOf given "cut"
          slice := valuesOf given "slice"
          measures := valuesOf given "measure"
          order := valuesOf given "order"
          page := page.getD 1
          pageSize? := pageSize })

/-- The command of a name with its arguments. -/
def Command.ofName? (name : String) (arguments : List String) : Option Command := do
  if name == "validate" then
    let given ← readOptions [modelRule] arguments
    some (.validate (← required? given "model" fileNameOf?))
  else if name == "views" then
    let given ← readOptions [modelRule] arguments
    some (.views (← required? given "model" fileNameOf?))
  else if name == "load" then
    let given ← readOptions (sourceRules ++ [⟨"output", some 'o', .single⟩]) arguments
    some (.load (← Source.ofOptions? given) (← optional? given "output" fileNameOf?))
  else if name == "aggregate" then
    let given ← readOptions aggregateRules arguments
    some (.aggregate (← Source.ofOptions? given) (← Question.ofOptions? given)
      (isGiven given "json"))
  else if name == "taxonomy" then
    let given ← readOptions (sourceRules ++ [single "taxonomy", single "level"]) arguments
    some (.taxonomy (← Source.ofOptions? given) (← required? given "taxonomy" anyText?)
      (← optional? given "level" levelOf?))
  else none

/-- Whether an argument asks for the version. -/
def asksVersion (argument : String) : Bool :=
  match Word.ofText argument with
  | .long name attached? => name == "version" && attached? == none
  | .letter c _ => c == 'V'
  | _ => false

/-- The command in some arguments. -/
def Command.ofArguments? : List String → Option Command
  | [] => none
  | first :: arguments =>
    if asksVersion first then some .version else Command.ofName? first arguments

end FactCube.Cli
