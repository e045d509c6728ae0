/-
Nodes of YAML documents: scalars, sequences and mappings, each with its tag.

The nodes of a document are known by their numbers, by which sequences and mappings refer to
them.  The tokens of a document make its nodes.  An alias stands for the node that bears its
anchor, which begins before the alias and may hold it; no two nodes bear one anchor.  Where a
node may be missing, an empty scalar stands in its place.  Tokens are asked for one by one, so
that a document can be refused before a refused place in its text is come to.
-/

import ModulePlan.Document.Yaml.Scan
import ModulePlan.Document.Yaml.Tag

namespace ModulePlan.Document.Yaml

inductive Node where
  | scalar (tag : Tag) (text : List Char)
  | sequence (tag : Tag) (items : Array Nat)
  | mapping (tag : Tag) (entries : Array (Nat × Nat))

namespace Node

def tag : Node → Tag
  | .scalar tag _ | .sequence tag _ | .mapping tag _ => tag

def missing : Node :=
  .scalar .null []

instance : Inhabited Node :=
  ⟨missing⟩

abbrev Handles := List (String × String)

/-- The tokens that are left of a document, its nodes so far, and those that bear anchors. -/
structure Draft where
  tokens : Tokens
  nodes : Array Node := #[]
  anchors : List (String × Nat) := []

abbrev Assembly := StateT Draft (Except Refusal)

def refuse {α : Type} : Assembly α :=
  throw .malformed

def look : Assembly (Option Token) := do
  match (← get).tokens with
  | .more token _ => return some token
  | .ended => return none
  | .refused refusal => throw refusal

def drop : Assembly Unit :=
  modify fun draft =>
    match draft.tokens with
    | .more _ rest => { draft with tokens := rest }
    | _ => draft

def fullTag (handles : Handles) (written : WrittenTag) : Assembly String :=
  match written.handle with
  | none => return written.suffix
  | some handle =>
    match handles.lookup handle with
    | some leader => return leader ++ written.suffix
    | none => refuse

def anchor? : Assembly (Option String) := do
  match ← look with
  | some (.anchor name) =>
    drop
    return some name
  | _ => return none

def writtenTag? : Assembly (Option WrittenTag) := do
  match ← look with
  | some (.tag written) =>
    drop
    return some written
  | _ => return none

/-- The anchor and the tag of a node, in either order. -/
def properties (handles : Handles) : Assembly (Option String × Option String) := do
  let first ← anchor?
  let written ← writtenTag?
  let anchor ← if first.isNone && written.isSome then anchor? else pure first
  match written with
  | none => return (anchor, none)
  | some written => return (anchor, some (← fullTag handles written))

def ofAlias (name : String) : Assembly Nat := do
  match (← get).anchors.lookup name with
  | some number => return number
  | none => refuse

def add (node : Node) : Assembly Nat := do
  let number := (← get).nodes.size
  modify fun draft => { draft with nodes := draft.nodes.push node }
  return number

/-- Adds a node, which bears an anchor if it has one that no other node bears. -/
def bear (anchor : Option String) (node : Node) : Assembly Nat := do
  match anchor with
  | none => add node
  | some name =>
    if ((← get).anchors.lookup name).isSome then refuse
    else
      let number ← add node
      modify fun draft => { draft with anchors := (name, number) :: draft.anchors }
      return number

def addItem (number item : Nat) : Assembly Unit :=
  modify fun draft =>
    { draft with nodes := draft.nodes.modify number fun
      | .sequence tag items => .sequence tag (items.push item)
      | node => node }

def addEntry (number key value : Nat) : Assembly Unit :=
  modify fun draft =>
    { draft with nodes := draft.nodes.modify number fun
      | .mapping tag entries => .mapping tag (entries.push (key, value))
      | node => node }

/-- The tag of a scalar: by its form if it is plain or bears a lone exclamation mark. -/
def scalarTag (written : Option String) (text : List Char) (isPlain : Bool) : Tag :=
  match written with
  | none => if isPlain then .ofPlain text else .text
  | some tag => if tag = "!" then .ofPlain text else .ofText tag

/-- The tag of a sequence or mapping, which has a tag of its own unless another is written. -/
def collectionTag (written : Option String) (own : Tag) : Tag :=
  match written with
  | none => own
  | some tag => if tag = "!" then own else .ofText tag

/-! ### Where nodes may be missing -/

def endsBlockPart : Option Token → Bool
  | some .key | some .value | some .blockEnd => true
  | _ => false

/-- May an item be missing before this token, in a list that is not indented? -/
def endsItem : Option Token → Bool
  | some .entry => true
  | token => endsBlockPart token

def endsIndentedItem : Option Token → Bool
  | some .entry | some .blockEnd => true
  | _ => false

inductive Brackets where
  | square
  | curly
deriving DecidableEq

namespace Brackets

def endWith : Brackets → Option Token → Bool
  | .square, some .flowSequenceEnd | .curly, some .flowMappingEnd => true
  | _, _ => false

def endValue (brackets : Brackets) : Option Token → Bool
  | some .comma => true
  | token => brackets.endWith token

def endKey (brackets : Brackets) : Option Token → Bool
  | some .value => true
  | token => brackets.endValue token

end Brackets

/-- Goes behind a comma, which must stand here unless this is the first item. -/
def passComma (isFirst : Bool) : Assembly Unit := do
  if !isFirst then
    match ← look with
    | some .comma => drop
    | _ => refuse

/-! ### Nodes -/

def nestingLimit : Nat := 487

/-- What is known of the place of a node: the handles of tags, and how many nodes may still be
nested here. -/
structure Setting where
  handles : Handles
  room : Nat := nestingLimit

def Setting.inside (setting : Setting) : Assembly Setting :=
  match setting.room with
  | 0 => throw (.fault (.kind .tooDeep))
  | room + 1 => return { setting with room := room }

mutual

/-- A node.  Blocks may be forbidden in its place, and lists that are not indented may be
allowed. -/
def assemble (setting : Setting) (inBlock mayStandOut : Bool) : Nat → Assembly Nat
  | 0 => refuse
  | fuel + 1 => do
    match ← look with
    | some (.alias name) =>
      drop
      ofAlias name
    | _ =>
      let (anchor, tag) ← properties setting.handles
      content setting inBlock mayStandOut anchor tag fuel
termination_by structural fuel => fuel

def content (setting : Setting) (inBlock mayStandOut : Bool) (anchor tag : Option String) :
    Nat → Assembly Nat
  | 0 => refuse
  | fuel + 1 => do
    let sequence := Node.sequence (collectionTag tag .sequence) #[]
    let mapping := Node.mapping (collectionTag tag .mapping) #[]
    match ← look, inBlock, mayStandOut with
    | some (.scalar text isPlain), _, _ =>
      drop
      bear anchor (.scalar (scalarTag tag text isPlain) text)
    | some .flowSequenceStart, _, _ =>
      let number ← bear anchor sequence
      let setting ← setting.inside
      drop
      flowItems setting true number fuel
      return number
    | some .flowMappingStart, _, _ =>
      let number ← bear anchor mapping
      let setting ← setting.inside
      drop
      flowEntries setting true number fuel
      return number
    | some .entry, _, true =>
      let number ← bear anchor sequence
      standingOutItems (← setting.inside) number fuel
      return number
    | some .sequenceStart, true, _ =>
      let number ← bear anchor sequence
      let setting ← setting.inside
      drop
      blockItems setting number fuel
      return number
    | some .mappingStart, true, _ =>
      let number ← bear anchor mapping
      let setting ← setting.inside
      drop
      blockEntries setting number fuel
      return number
    | _, _, _ =>
      if anchor.isSome || tag.isSome then bear anchor (.scalar (scalarTag tag [] true) [])
      else refuse
termination_by structural fuel => fuel

def blockItems (setting : Setting) (number : Nat) : Nat → Assembly Unit
  | 0 => refuse
  | fuel + 1 => do
    match ← look with
    | some .entry =>
      drop
      let item ← if endsIndentedItem (← look) then add missing
        else assemble setting true false fuel
      addItem number item
      blockItems setting number fuel
    | some .blockEnd => drop
    | _ => refuse
termination_by structural fuel => fuel

def standingOutItems (setting : Setting) (number : Nat) : Nat → Assembly Unit
  | 0 => refuse
  | fuel + 1 => do
    match ← look with
    | some .entry =>
      drop
      let item ← if endsItem (← look) then add missing else assemble setting true false fuel
      addItem number item
      standingOutItems setting number fuel
    | _ => return ()
termination_by structural fuel => fuel

def blockPart (setting : Setting) : Nat → Assembly Nat
  | 0 => refuse
  | fuel + 1 => do
    if endsBlockPart (← look) then add missing else assemble setting true true fuel
termination_by structural fuel => fuel

def blockValue (setting : Setting) : Nat → Assembly Nat
  | 0 => refuse
  | fuel + 1 => do
    match ← look with
    | some .value =>
      drop
      blockPart setting fuel
    | _ => add missing
termination_by structural fuel => fuel

def blockEntries (setting : Setting) (number : Nat) : Nat → Assembly Unit
  | 0 => refuse
  | fuel + 1 => do
    match ← look with
    | some .key =>
      drop
      let key ← blockPart setting fuel
      let value ← blockValue setting fuel
      addEntry number key value
      blockEntries setting number fuel
    | some .blockEnd => drop
    | _ => refuse
termination_by structural fuel => fuel

def flowKey (setting : Setting) (brackets : Brackets) : Nat → Assembly Nat
  | 0 => refuse
  | fuel + 1 => do
    if brackets.endKey (← look) then add missing else assemble setting false false fuel
termination_by structural fuel => fuel

def flowValue (setting : Setting) (brackets : Brackets) : Nat → Assembly Nat
  | 0 => refuse
  | fuel + 1 => do
    match ← look with
    | some .value =>
      drop
      if brackets.endValue (← look) then add missing else assemble setting false false fuel
    | _ => add missing
termination_by structural fuel => fuel

def flowEntry (setting : Setting) (brackets : Brackets) (number : Nat) : Nat → Assembly Unit
  | 0 => refuse
  | fuel + 1 => do
    let key ← flowKey setting brackets fuel
    let value ← flowValue setting brackets fuel
    addEntry number key value
termination_by structural fuel => fuel

/-- The items of a list in brackets.  An entry among them is a mapping of its own. -/
def flowItems (setting : Setting) (isFirst : Bool) (number : Nat) : Nat → Assembly Unit
  | 0 => refuse
  | fuel + 1 => do
    match ← look with
    | some .flowSequenceEnd => drop
    | _ =>
      passComma isFirst
      match ← look with
      | some .key =>
        let entry ← add (.mapping .mapping #[])
        let inner ← setting.inside
        drop
        flowEntry inner .square entry fuel
        addItem number entry
        flowItems setting false number fuel
      | some .flowSequenceEnd => drop
      | _ =>
        let item ← assemble setting false false fuel
        addItem number item
        flowItems setting false number fuel
termination_by structural fuel => fuel

/-- The entries of a mapping in brackets.  A node among them is a key without a value. -/
def flowEntries (setting : Setting) (isFirst : Bool) (number : Nat) : Nat → Assembly Unit
  | 0 => refuse
  | fuel + 1 => do
    match ← look with
    | some .flowMappingEnd => drop
    | _ =>
      passComma isFirst
      match ← look with
      | some .key =>
        drop
        flowEntry setting .curly number fuel
        flowEntries setting false number fuel
      | some .flowMappingEnd => drop
      | _ =>
        let key ← assemble setting false false fuel
        addEntry number key (← add missing)
        flowEntries setting false number fuel
termination_by structural fuel => fuel

end

/-! ### Documents -/

/-- The directives before a document: whether a version was named, and the handles. -/
def directives (hasVersion : Bool) (handles : Handles) : Nat → Assembly Handles
  | 0 => refuse
  | fuel + 1 => do
    match ← look with
    | some (.directive (.version major)) =>
      drop
      if hasVersion || major ≠ 1 then refuse else directives true handles fuel
    | some (.directive (.tagHandle handle leader)) =>
      drop
      if (handles.lookup handle).isSome then refuse
      else directives hasVersion ((handle, leader) :: handles) fuel
    | some (.directive .other) =>
      drop
      directives hasVersion handles fuel
    | _ => return handles

/-- The handles that are known without a directive; a directive may give them another
meaning. -/
def standardHandles : Handles :=
  [("!", "!"), ("!!", standardLeader)]

def isEmptyDocument : Option Token → Bool
  | none | some .documentStart | some .documentEnd | some (.directive _) => true
  | _ => false

def marked (fuel : Nat) : Assembly Nat := do
  let handles ← directives false [] fuel
  match ← look with
  | some .documentStart =>
    drop
    if isEmptyDocument (← look) then add missing
    else assemble { handles := handles ++ standardHandles } true false fuel
  | _ => refuse

def passEnds : Nat → Assembly Unit
  | 0 => refuse
  | fuel + 1 => do
    match ← look with
    | some .documentEnd =>
      drop
      passEnds fuel
    | _ => return ()

/-- Nothing but the marks of its end may follow a document.  The directives of another one are
looked at before it is refused. -/
def finish (fuel : Nat) : Assembly Unit := do
  passEnds fuel
  match ← look with
  | none => return ()
  | some _ =>
    let _ ← directives false [] fuel
    refuse

/-- The only document of a text, if there is one.  A document without directives needs no
mark before it. -/
def document (fuel : Nat) : Assembly (Option Nat) := do
  match ← look with
  | none => return none
  | some (.directive _) | some .documentStart =>
    let root ← marked fuel
    finish fuel
    return some root
  | some _ =>
    let root ← assemble { handles := standardHandles } true false fuel
    finish fuel
    return some root

/-- The nodes of a text, and the number of its document's node, if it has a document. -/
def ofTokens (tokens : Tokens) : Except Refusal (Array Node × Option Nat) := do
  let (root, draft) ← (document (8 * tokens.countFrom 1)).run { tokens }
  return (draft.nodes, root)

end Node

end ModulePlan.Document.Yaml
