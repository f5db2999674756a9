import InsnEncoding.Catalog
import InsnEncoding.Description.Change
import InsnEncoding.Listing

/-!
# Sessions

A session holds a list of descriptions and a current word. Its steps read descriptions into the list,
sort, remove and change them, and encode and decode the current word by them. A step that fails leaves
the session as it was, except that a series of changes keeps those before the failure.
-/

namespace InsnEncoding

/-- A list of descriptions and a word to work on. -/
structure Session where
  descriptions : List Description := []
  word : Word := 0

namespace Session

/-- What can be asked of a session. -/
inductive Step where
  /-- Read one line and add its description at the end. -/
  | addLine (text : String)
  /-- Read a listing and add its descriptions at the end. -/
  | addListing (strict : Bool) (text : String)
  | sort
  | catalog
  | remove (index : Nat)
  | setWord (word : Word)
  /-- Make the current word from a description and its operands. -/
  | encode (index : Nat) (values : List Word)
  /-- Replace an operand in the current word. -/
  | insert (index operand : Nat) (manual : Bool) (value : Word)
  /-- Look at an operand in the current word. -/
  | extract (index operand : Nat) (manual : Bool)
  /-- Decode the current word by every description that it is an encoding of. -/
  | disassemble
  | validate
  | change (index : Nat) (changes : List Change)

/-- What a session answers. -/
inductive Answer where
  | done
  | description (description : Description)
  | lineError (fault : LineError)
  | loaded (count : Nat)
  | loadError (fault : LoadError)
  | names (entries : List (Word × String))
  | catalog (catalog : Catalog)
  | word (word : Word)
  | encodeError (fault : ValidationError)
  | operand (raw : Word) (value : Value)
  | disassembly (entries : List (String × List (Word × Value)))
  | verdicts (entries : List (Except ValidationError Unit × Except ValidationError Unit))
  | changed (description : Description)
  | changeError (fault : LexicalError)

/-- The verdicts on a description and on its manual format. -/
def verdicts (description : Description) :
    Except ValidationError Unit × Except ValidationError Unit :=
  (description.validate, description.validateManualFormat)

/-- An operand of the format, or of the manual format, of a description. -/
def operand? (session : Session) (index operand : Nat) (manual : Bool) : Option Operand := do
  let description ← session.descriptions[index]?
  let format ← if manual then description.manualFormat else some description.format
  format.operands[operand]?

/-- What an operand is in a word. -/
def look (operand : Operand) (word : Word) : Answer :=
  .operand (operand.extract word) (operand.decode word)

/-- Every description that the current word is an encoding of, with the operands in the format in
    which it shows them. -/
def disassemble (session : Session) : List (String × List (Word × Value)) :=
  (session.descriptions.filter fun description => description.isEncoding session.word).map
    fun description => (description.mnemonic, description.shownFormat.decode session.word)

/-- Do one step; `none` if it names a description or an operand that is not there. -/
def step (session : Session) : Step → Option (Answer × Session)
  | .addLine text =>
    match Description.ofLine text with
    | .error fault => some (.lineError fault, session)
    | .ok description =>
      some (.description description,
        { session with descriptions := session.descriptions ++ [description] })
  | .addListing strict text =>
    match Listing.read strict none text with
    | .error fault => some (.loadError fault, session)
    | .ok descriptions =>
      some (.loaded descriptions.length,
        { session with descriptions := session.descriptions ++ descriptions })
  | .sort =>
    let descriptions := Description.sortByWord session.descriptions
    some (.names (descriptions.map fun description => (description.word, description.mnemonic)),
      { session with descriptions })
  | .catalog => some (.catalog (Catalog.gather session.descriptions), session)
  | .remove index => do
    let description ← session.descriptions[index]?
    return (.description description,
      { session with descriptions := session.descriptions.eraseIdx index })
  | .setWord word => some (.done, { session with word })
  | .encode index values => do
    let description ← session.descriptions[index]?
    match description.encode values with
    | .error fault => return (.encodeError fault, session)
    | .ok word => return (.word word, { session with word })
  | .insert index operand manual value => do
    let operand ← session.operand? index operand manual
    let word := operand.insert session.word value
    return (look operand word, { session with word })
  | .extract index operand manual => do
    let operand ← session.operand? index operand manual
    return (look operand session.word, session)
  | .disassemble => some (.disassembly session.disassemble, session)
  | .validate => some (.verdicts (session.descriptions.map verdicts), session)
  | .change index changes => do
    let description ← session.descriptions[index]?
    let (changed, fault?) := Change.applyAll description changes
    let after := { session with descriptions := session.descriptions.set index changed }
    match fault? with
    | some fault => return (.changeError fault, after)
    | none => return (.changed changed, after)

/-- Do steps one after the other and give what each answers with the session after it. -/
def run (session : Session) : List Step → Option (List (Answer × Session))
  | [] => some []
  | step :: rest => do
    let (answer, after) ← session.step step
    return (answer, after) :: (← run after rest)

end Session

end InsnEncoding
