import Mathlib
import WebsiteInfrastructure.Library.LineReaders
import WebsiteInfrastructure.Library.Raising

/-!
# The parser of the kubeadm configuration

The tokeniser and the block parser of `validate_kubeadm_config.py`. A parser gives back the tokens
that it has not read; how often it may still call itself is counted down.
-/

namespace KubeadmConfig

open PythonText Raising

abbrev Text := List Char

/-! ## Values -/

/-- `[]` is the empty list; every other scalar is its text. -/
inductive Value
  | scalar (text : Text)
  | list (items : List Value)
  | mapping (entries : List (Text × Value))

abbrev Entries := List (Text × Value)

/-- A dict has the entries in the order in which they were set. -/
def Value.get? (v : Value) (key : String) : Option Value :=
  match v with
  | .mapping entries => entries.lookup key.toList
  | _ => none

structure Token where
  indent : ℕ
  content : Text
  line : ℕ

/-- `ConfigSyntaxError`, or no more calls -/
inductive ParseError
  | calls
  | configSyntax (message : String)
  deriving DecidableEq

/-! ## Scalars and pairs -/

/-- `_strip_scalar` -/
def stripScalar (raw : Text) (line : ℕ) : Except ParseError Value :=
  let value := strip raw
  if value = ['[', ']'] then .ok (.list [])
  else if value = [] then .error (.configSyntax s!"empty scalar at line {line}")
  else if value.head? = some '\'' ∨ value.head? = some '"' then
    if value.length < 2 ∨ value.getLast? ≠ value.head? then
      .error (.configSyntax s!"unterminated quoted scalar at line {line}")
    else .ok (.scalar (value.drop 1).dropLast)
  else if [' ', '#'] <:+: value then
    .error (.configSyntax s!"inline comments are unsupported at line {line}")
  else .ok (.scalar value)

/-- `[A-Za-z0-9_.-]` -/
def isKeyChar (c : Char) : Bool := c.isAlphanum || c ∈ ['_', '.', '-']

/-- `[A-Za-z0-9_.-]+:` at the start of a text -/
def opensPair (content : Text) : Bool :=
  content.head?.any isKeyChar && (content.dropWhile isKeyChar).head? = some ':'

/-- `_split_pair` of the content of one line -/
def splitPair (content : Text) (line : ℕ) : Except ParseError (Text × Text) :=
  if opensPair content then
    .ok (content.takeWhile isKeyChar,
      ((content.dropWhile isKeyChar).drop 1).dropWhile isSpace)
  else .error (.configSyntax s!"unsupported mapping syntax at line {line}")

/-! ## Tokens -/

/-- `[&*!]` -/
def isMark (c : Char) : Bool := c ∈ ['&', '*', '!']

/-- A space and a mark after it -/
def hasMark : Text → Bool
  | c :: d :: cs => (isSpace c && isMark d) || hasMark (d :: cs)
  | _ => false

/-- One turn of the loop of `_tokenize`: a token, or none for a line that is blank or a comment. -/
def tokenOf (original : Text) (line : ℕ) : Except ParseError (Option Token) :=
  let text := original.rdropWhile isSpace
  let indent := (text.takeWhile (· = ' ')).length
  let content := text.drop indent
  if strip text = [] ∨ (text.dropWhile isSpace).head? = some '#' then .ok none
  else if '\t' ∈ text then .error (.configSyntax s!"tabs are unsupported at line {line}")
  else if indent % 2 ≠ 0 then
    .error (.configSyntax s!"indentation must use two-space levels at line {line}")
  else if content.head?.any isMark || hasMark content ||
      content.getLast?.any (fun c => c = '|' || c = '>') then
    .error (.configSyntax s!"advanced YAML features are unsupported at line {line}")
  else .ok (some ⟨indent, content, line⟩)

def tokensOf : List Text → ℕ → Except ParseError (List Token)
  | [], _ => .ok []
  | original :: lines, line => do
    let token ← tokenOf original line
    let tokens ← tokensOf lines (line + 1)
    .ok (token.toList ++ tokens)

/-- `_tokenize` -/
def tokenize (document : Text) (firstLine : ℕ) : Except ParseError (List Token) := do
  let tokens ← tokensOf (splitlines document) firstLine
  raiseIf (tokens = []) (.configSyntax "empty YAML document")
  .ok tokens

/-! ## Blocks -/

/-- `content.startswith("-")` -/
def Token.isItem (t : Token) : Bool := t.content.head? = some '-'

mutual

/-- `_parse_mapping`, from the next token on -/
def parseMapping : ℕ → List Token → ℕ → Entries →
    Except ParseError (Entries × List Token)
  | 0, _, _, _ => .error .calls
  | _ + 1, [], _, result => .ok (result, [])
  | n + 1, t :: ts, indent, result =>
    if t.indent < indent then .ok (result, t :: ts)
    else if indent < t.indent then .error (.configSyntax s!"unexpected indentation at line {t.line}")
    else if t.isItem then .ok (result, t :: ts)
    else do
      let (key, raw) ← splitPair t.content t.line
      raiseIf (key ∈ result.map Prod.fst) (.configSyntax s!"duplicate mapping key at line {t.line}")
      if raw ≠ [] then
        let value ← stripScalar raw t.line
        parseMapping n ts indent (result ++ [(key, value)])
      else
        raiseIf (ts.head?.all (·.indent ≤ indent))
          (.configSyntax s!"mapping key has no value at line {t.line}")
        let (value, rest) ← parseBlock n ts (indent + 2)
        parseMapping n rest indent (result ++ [(key, value)])

/-- `_parse_sequence`, from the next token on -/
def parseSequence : ℕ → List Token → ℕ → List Value →
    Except ParseError (List Value × List Token)
  | 0, _, _, _ => .error .calls
  | _ + 1, [], _, result => .ok (result, [])
  | n + 1, t :: ts, indent, result =>
    if t.indent < indent then .ok (result, t :: ts)
    else do
      raiseIf (t.indent ≠ indent ∨ t.isItem = false)
        (.configSyntax s!"unsupported sequence indentation at line {t.line}")
      let raw := strip (t.content.drop 1)
      if raw = [] then
        raiseIf (ts.head?.all (·.indent ≤ indent))
          (.configSyntax s!"empty sequence item at line {t.line}")
        let (item, rest) ← parseBlock n ts (indent + 2)
        parseSequence n rest indent (result ++ [item])
      else if opensPair raw then
        let (key, value) ← splitPair raw t.line
        if value = [] then
          raiseIf (ts.head?.all (·.indent ≠ indent + 4))
            (.configSyntax s!"nested sequence value has invalid indentation at line {t.line}")
          let (nested, rest) ← parseBlock n ts (indent + 4)
          let (entries, rest) ← parseMapping n rest (indent + 2) [(key, nested)]
          parseSequence n rest indent (result ++ [.mapping entries])
        else
          let first ← stripScalar value t.line
          let (entries, rest) ← parseMapping n ts (indent + 2) [(key, first)]
          parseSequence n rest indent (result ++ [.mapping entries])
      else
        let item ← stripScalar raw t.line
        raiseIf (ts.head?.any (indent < ·.indent))
          (.configSyntax s!"scalar sequence item has nested content at line {t.line}")
        parseSequence n ts indent (result ++ [item])

/-- `_parse_block`, from the next token on; where there is none, no caller comes. -/
def parseBlock : ℕ → List Token → ℕ → Except ParseError (Value × List Token)
  | 0, _, _ => .error .calls
  | _ + 1, [], _ => .error (.configSyntax "unexpected indentation near line 0")
  | n + 1, t :: ts, indent =>
    if t.indent ≠ indent then .error (.configSyntax s!"unexpected indentation near line {t.line}")
    else if t.isItem then do
      let (items, rest) ← parseSequence n (t :: ts) indent []
      .ok (.list items, rest)
    else do
      let (entries, rest) ← parseMapping n (t :: ts) indent []
      .ok (.mapping entries, rest)

end

/-! ## Documents -/

/-- As many calls as the tokens can need -/
def callsFor (tokens : List Token) : ℕ := 2 * tokens.length + 2

/-- A chunk of the text, which must be one block to its end -/
def parseChunk (chunk : Text) (start : ℕ) : Except ParseError Value := do
  let tokens ← tokenize chunk start
  let (parsed, rest) ← parseBlock (callsFor tokens) tokens 0
  raiseIf (rest ≠ []) (.configSyntax s!"document at line {start} is not one mapping")
  .ok parsed

/-- A line that is neither blank nor a comment -/
def hasContent (line : Text) : Bool :=
  strip line ≠ [] && (line.dropWhile isSpace).head? ≠ some '#'

/-- What the loop over the lines has put together: the finished chunks and the current one -/
structure Chunks where
  chunks : List (Text × ℕ)
  current : List Text
  firstLine : ℕ
  chunkStart : ℕ

def Chunks.finish (c : Chunks) (start : ℕ) : List (Text × ℕ) :=
  if c.current.any hasContent then c.chunks ++ [(['\n'].intercalate c.current, start)]
  else c.chunks

def chunkLine (c : Chunks) (number : ℕ) (line : Text) : Chunks :=
  if strip line = ['-', '-', '-'] then
    { c with chunks := c.finish c.chunkStart, current := [], chunkStart := number + 1 }
  else
    { c with
      firstLine := if c.current = [] then c.chunkStart else c.firstLine
      current := c.current ++ [line] }

def chunkLines (c : Chunks) (number : ℕ) : List Text → Chunks
  | [] => c
  | line :: lines => chunkLines (chunkLine c number line) (number + 1) lines

def chunksOf (text : Text) : List (Text × ℕ) :=
  let c := chunkLines ⟨[], [], 1, 1⟩ 1 (splitlines text)
  c.finish c.firstLine

/-- The documents so far, by their kinds -/
abbrev Documents := List (Text × Value)

def addDocument (documents : Documents) (chunk : Text × ℕ) : Except ParseError Documents := do
  let parsed ← parseChunk chunk.1 chunk.2
  match parsed with
  | .mapping _ =>
    match parsed.get? "kind" with
    | some (.scalar kind) =>
      raiseIf (kind ∈ documents.map Prod.fst)
        (.configSyntax s!"duplicate document kind at line {chunk.2}")
      .ok (documents ++ [(kind, parsed)])
    | _ => .error (.configSyntax s!"document at line {chunk.2} has no scalar kind")
  | _ => .error (.configSyntax s!"document at line {chunk.2} is not one mapping")

def addDocuments (documents : Documents) : List (Text × ℕ) → Except ParseError Documents
  | [] => .ok documents
  | chunk :: chunks => do
    let documents ← addDocument documents chunk
    addDocuments documents chunks

/-- `parse_documents` -/
def parseDocuments (text : Text) : Except ParseError Documents := addDocuments [] (chunksOf text)

end KubeadmConfig
