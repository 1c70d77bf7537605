import FactCube.Cli.Command
import FactCube.Cli.Listing
import FactCube.Cli.Session
import FactCube.Cube.Collecting
import FactCube.Model.Notation
import FactCube.Model.Validation
import FactCube.Source.Rows

/-!
# Running commands

Every command but the version starts from a model; those on facts then read rows, map them and put
them into a store of their own. A failure names the step it happened in.
-/

namespace FactCube.Cli

/-! ## Models -/

/-- Whether a model file is in JSON: its name says so. All others are in YAML. -/
def isJsonFile (path : String) : Bool := Path.hasExtension path "json"

/-- The heading of the faults of a notation. -/
def parsingHeading (path : String) : String :=
  if isJsonFile path then "Parsing model JSON" else "Parsing model YAML"

/-- The document that the bytes of a file stand for in its notation. -/
def documentOf? (path : String) (bytes : List UInt8) : Option Document :=
  if isJsonFile path then (Document.ofJsonBytes bytes).toOption else Document.ofYamlBytes? bytes

/-- What a fault of the model file leads to. A directory can be opened but not read. -/
def modelFault (path : String) (fault : FileFault) : List String :=
  if fault == .isDirectory then [parsingHeading path, fault.message]
  else ["Opening model file " ++ Text.quoted path, fault.message]

/-- The model of a file. -/
def loadModel (path : String) : Attempt Schema := do
  let bytes ← fileBytes path (modelFault path)
  match documentOf? path bytes with
  | none => fail [parsingHeading path, "the file holds no model document"]
  | some document =>
    match document.validate with
    | .error invalid => fail ["Validating model " ++ Text.quoted path, invalid.message]
    | .ok schema => pure schema

/-! ## Facts -/

/-- What a fault of the file of rows leads to. A directory can be opened but not read. -/
def inputFault (path : String) (fault : FileFault) : List String :=
  let reading := "Reading rows from " ++ Text.quoted path
  if fault == .isDirectory then
    [reading, "Reading headers from " ++ Text.quoted path, fault.message]
  else [reading, "Opening input file " ++ Text.quoted path, fault.message]

/-- The bytes of the file of rows; a dash stands for the standard input. -/
def sourceBytes (path : String) : Attempt (List UInt8) :=
  if Path.isDash path then inputBytes else fileBytes path (inputFault path)

/-- The encoding of a label, UTF-8 if there is none. -/
def encodingOf (label? : Option String) : Attempt Encoding :=
  match label? with
  | none => pure .utf8
  | some label =>
    match Encoding.ofLabel? label with
    | some encoding => pure encoding
    | none => fail [Encoding.unknownMessage label]

/-- The facts of a source. -/
structure LoadedFacts where
  schema : Schema
  store : Store
  report : LoadReport

/-- Maps the rows of a source into a store of their own. -/
def loadFacts (source : Source) : Attempt LoadedFacts := do
  let schema ← loadModel source.model
  let encoding ← encodingOf source.encoding?
  let bytes ← sourceBytes source.input
  match Sheet.ofBytes (Delimiter.ofFile source.input source.delimiter?) encoding bytes with
  | .error fault =>
    fail (("Reading rows from " ++ Text.quoted source.input) :: fault.parts source.input)
  | .ok sheet =>
    match Store.empty.load schema source.mode source.workers sheet.rows with
    | .error fault => fail (("Mapping rows from " ++ Text.quoted source.input) :: fault.parts)
    | .ok (report, store) => pure ⟨schema, store, report⟩

/-! ## Commands -/

/-- The outcome of a command that printed something. -/
def printed (output : String) : Outcome := ⟨0, output, ""⟩

/-- Maps the rows of a source, writes the facts where they are wanted, and tells how many there
are. -/
def runLoad (source : Source) (output? : Option String) : Attempt Outcome := do
  let facts ← loadFacts source
  let lines := facts.store.jsonLines facts.schema
  let told := loadLine facts.report facts.store.size
  match output? with
  | none => pure ⟨0, "", told⟩
  | some path =>
    if Path.isDash path then pure ⟨0, lines, told⟩
    else
      writeText path lines fun fault =>
        ["Creating output file " ++ Text.quoted path, fault.message]
      pure ⟨0, "", told⟩

/-- JSON over many lines, or else the table. -/
def shown (asJson : Bool) (json : Json) (table : String) : String :=
  if asJson then json.pretty ++ "\n" else table

/-- The text of the answer to a question. -/
def answerText (facts : LoadedFacts) (workers : Nat) (asJson : Bool) :
    Question → Except Failure String
  | .view entity name dimension? member? =>
    match facts.store.view facts.schema workers entity name dimension? member? with
    | .error fault => .error ⟨[fault.message]⟩
    | .ok result => .ok (shown asJson result.toJson result.table)
  | .query texts =>
    match texts.read with
    | .error malformed => .error ⟨malformed.toFault.parts⟩
    | .ok query =>
      match facts.store.aggregate facts.schema workers query with
      | .error fault => .error ⟨fault.parts⟩
      | .ok result => .ok (shown asJson result.toJson result.table)

/-- Aggregates the facts of a source. -/
def runAggregate (source : Source) (question : Question) (asJson : Bool) : Attempt Outcome := do
  let facts ← loadFacts source
  let text ← liftExcept (answerText facts source.workers asJson question)
  pure (printed text)

/-- The listings of some levels of a taxonomy. -/
def levelListings (index : TaxonomyIndex) (taxonomy : String) (levels : List Nat) :
    Except Failure (List String) :=
  levels.mapM fun level =>
    match levelListing? index taxonomy level with
    | some listing => .ok listing
    | none => .error ⟨["Taxonomy '" ++ taxonomy ++ "' has no level " ++ Decimal.integerText level]⟩

/-- Lists the entries of a taxonomy that occur in the facts of a source. -/
def runTaxonomy (source : Source) (name : String) (level? : Option Nat) : Attempt Outcome := do
  let facts ← loadFacts source
  if (facts.schema.taxonomy? name).isNone then
    fail ["Model '" ++ facts.schema.dataset.name ++ "' declares no taxonomy '" ++ name ++ "'"]
  else
    let index := TaxonomyIndex.build facts.schema facts.store.toList
    let levels := match level? with
      | some level => [level]
      | none => index.levels name
    let listings ← liftExcept (levelListings index name levels)
    pure (printed (String.join listings))

/-- The line that tells the version. -/
def versionLine : String := "spending-model 0.1.0\n"

/-- Runs a command. -/
def Command.attempt : Command → Attempt Outcome
  | .version => pure (printed versionLine)
  | .validate model => do
    let schema ← loadModel model
    pure (printed (validLine schema))
  | .views model => do
    let schema ← loadModel model
    pure (printed (dimensionTable schema ++ "\n" ++ viewTable schema))
  | .load source output? => runLoad source output?
  | .aggregate source question asJson => runAggregate source question asJson
  | .taxonomy source name level? => runTaxonomy source name level?

/-! ## The program -/

/-- How the program is called. -/
def usage : String :=
  "usage: spending-model <command> [options]\n" ++
  "  validate   --model FILE\n" ++
  "  views      --model FILE\n" ++
  "  load       SOURCE [--output FILE]\n" ++
  "  aggregate  SOURCE (--view NAME | --drilldown FIELD ... ) [--json]\n" ++
  "  taxonomy   SOURCE --taxonomy NAME [--level NUMBER]\n" ++
  "where SOURCE is --model FILE --input FILE --mode strict|lenient\n" ++
  "                [--workers COUNT] [--delimiter CHARACTER] [--input-encoding NAME]\n"

/-- The outcome of arguments that make no command. -/
def misused : Outcome := ⟨2, "", usage⟩

/-- The session of some arguments. -/
def session (arguments : List String) : Session Outcome :=
  match Command.ofArguments? arguments with
  | none => .done misused
  | some command => command.attempt.run.bind fun result => .done (.ofResult result)

end FactCube.Cli
