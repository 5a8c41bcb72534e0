/-
FluidScss/Sheet.lean

Style sheets as trees.  Each item of an outline becomes at most one node:

* text that begins with `@` is an at-rule, with or without a block;
* other text in front of a block is a list of selectors, unless it ends with
  a colon: such a block nests properties, and is dropped with all it holds;
* a block without text is transparent and has no selectors;
* other text in a statement is a declaration if it has a colon with a
  property in front of it, and nothing otherwise.

The chunks of one text are joined with a blank where a comment stood.
-/
import FluidScss.Delimiter
import FluidScss.Important
import FluidScss.Sheet.Outline
import FluidScss.Text.Word

namespace FluidScss

/-- A node of a style sheet, with the line of its first chunk. -/
inductive Node
  | declaration (property value : Text) (important : Bool) (line : Nat)
  | atRule (name params : Text) (children : List Node) (line : Nat)
  | block (selector : Text) (selectors : List Text) (children : List Node) (line : Option Nat)

/-! ### The text of chunks -/

/-- One more chunk behind `text`, with a blank between if neither has one. -/
def addChunk (text : Text) (chunk : Chunk) : Text :=
  if text = [] ∨ (text.getLast?.any isBlank) ∨ (chunk.text.head?.any isBlank) then
    text ++ chunk.text
  else text ++ " " ++ chunk.text

/-- The text of chunks, trimmed. -/
def chunksText (chunks : List Chunk) : Text := Text.trim (chunks.foldl addChunk [])

/-- The line where the chunks begin. -/
def chunksLine (chunks : List Chunk) : Nat := (chunks.head?.map Chunk.line).getD 1

/-! ### Statements -/

/-- Whether `c` may stand in the name of an at-rule. -/
def isNameChar (c : Char) : Bool := isWordChar c || c = '-'

/-- The at-rule that `text` spells behind its `@`. -/
def atRuleNode (text : Text) (children : List Node) (line : Nat) : Node :=
  .atRule (text.takeWhile isNameChar) (Text.trim (text.dropWhile isNameChar)) children line

/-- The declaration that `text` spells, if it does. -/
def declarationNode? (text : Text) (line : Nat) : Option Node :=
  match Text.cut ':' text with
  | (_, none) => none
  | (property, some value) =>
    let property := Text.trim property
    if property = [] then none
    else
      let (value, important) := splitImportant true (Text.trim value)
      some (.declaration property value important line)

/-- The node of a statement. -/
def statementNode? (chunks : List Chunk) : Option Node :=
  match chunksText chunks with
  | '@' :: text => some (atRuleNode text [] (chunksLine chunks))
  | text => declarationNode? text (chunksLine chunks)

/-- The selectors of a block's text. -/
def selectorList (text : Text) : List Text := (splitTopLevel "," text).filter (· ≠ [])

/-- The node of a statement without its semicolon. -/
def lastNode (last : List Chunk) : List Node :=
  if last = [] then [] else (statementNode? last).toList

/-- The node of a block. -/
def blockNode? (head : List Chunk) (children : List Node) : Option Node :=
  match chunksText head with
  | [] => some (.block [] [] children none)
  | '@' :: text => some (atRuleNode text children (chunksLine head))
  | text =>
    if text.getLast? = some ':' then none
    else some (.block text (selectorList text) children (some (chunksLine head)))

/-! ### Trees -/

mutual

/-- The node of an item, if it has one. -/
def Item.node? : Item → Option Node
  | .empty => none
  | .statement chunks => statementNode? chunks
  | .block head body last => blockNode? head (Item.nodes body ++ lastNode last)

/-- The nodes of items, in order. -/
def Item.nodes : List Item → List Node
  | [] => []
  | item :: items => item.node?.toList ++ Item.nodes items

end

/-- The nodes of a sheet. -/
def Outline.nodes (o : Outline) : List Node := Item.nodes o.items ++ lastNode o.last

/-- The tree of a style sheet. -/
def parseSheet (source : Text) : Except SheetDefect (List Node) :=
  (Outline.read? source).map Outline.nodes

end FluidScss
