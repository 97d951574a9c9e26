import Stylesmith.Text.Blank
import Stylesmith.Toml.Moment
import Stylesmith.Transform.Catalog

set_option autoImplicit false

namespace Stylesmith

inductive Query.Versions where
  | exact (version : Text)
  | between (first last : Text)
  | beyond (bound : Text)
  deriving DecidableEq, Repr

inductive Query where
  /-- The last or the unreleased versions, of one browser or of all. -/
  | recent (browser : Option Text)
  | since (year month day : Nat)
  | usage (region : Option Text)
  | supports (feature : Text)
  | electron (versions : Query.Versions)
  | node (versions : Query.Versions)
  | browser (name : Text) (versions : Query.Versions)
  | package (name : Text)
  /-- A clause without names that could be wrong. -/
  | plain
  | unknown (text : Text)
  deriving DecidableEq, Repr

namespace Query

inductive Refusal where
  | malformed (rest : Text)
  | startsWithNot (clause : Text)
  | unknownBrowser (name : Text)
  | unknownVersion (name version : Text)
  | unknownElectron (version : Text)
  | unknownNode (version : Text)
  | noDay (year month day : Nat)
  | unknownFeature (name : Text)
  | unknownRegion (name : Text)
  | unknownQuery (text : Text)
  | badPackageName (reason : Text)
  | missingPackage (name : Text)
  deriving DecidableEq, Repr

def ticked (t : Text) : Text := '\'' :: t ++ ['\'']

def Refusal.message : Refusal → Text
  | malformed rest => "failed to parse the rest of input: ..." ++ ticked rest
  | startsWithNot clause =>
    "query cannot start with 'not'; add any other queries before " ++ ticked clause
  | unknownBrowser name => "unknown browser: " ++ ticked name
  | unknownVersion name version =>
    "unknown version " ++ ticked version ++ " of browser " ++ ticked name
  | unknownElectron version => "unknown Electron version: " ++ version
  | unknownNode version => "unknown Node.js version: " ++ version
  | noDay year month day =>
    "invalid date: " ++ Text.join ['-'] [Nat.repr year, Nat.repr month, Nat.repr day]
  | unknownFeature name => "unknown browser feature: " ++ ticked name
  | unknownRegion name => "unknown region: " ++ ticked name
  | unknownQuery text => "unknown query: " ++ ticked text
  | badPackageName reason => "invalid extend name: " ++ reason
  | missingPackage name => "failed to resolve " ++ ticked name ++ " package in \x60extends\x60 query"

abbrev Reader (α : Type) := Text → Option (α × Text)

def isGap (c : Char) : Bool := c == ' ' || c == '\t'

def word? (word t : Text) : Option Text :=
  if Text.startsIgnoringCase word t then some (t.drop word.length) else none

def gap? (t : Text) : Option Text :=
  if t.head?.any isGap then some (t.dropWhile isGap) else none

def wordGap? (word t : Text) : Option Text := (word? word t).bind gap?

def run (ok : Char → Bool) : Reader Text := fun t =>
  if t.head?.any ok then some (t.takeWhile ok, t.dropWhile ok) else none

def name : Reader Text := run fun c => c.isAlphanum || c == '_'

def version : Reader Text := run fun c => c.isDigit || c == '.'

def count? (t : Text) : Option Text := do
  let (digits, rest) ← run Char.isDigit t
  if (Catalog.number? digits).any (· < 0x10000) then some rest else none

def amount? (t : Text) : Option Text :=
  let t := if t.head?.any fun c => c == '+' || c == '-' then t.drop 1 else t
  let rest := t.dropWhile Char.isDigit
  let whole := t.length ≠ rest.length
  match rest with
  | '.' :: fraction =>
    if whole ∨ fraction.head?.any Char.isDigit then some (fraction.dropWhile Char.isDigit) else none
  | _ => if whole then some rest else none

def plural? (word t : Text) : Option Text := (word? word t).map fun t => (word? "s" t).getD t

def namedVersions : Reader (Option Text) := fun t =>
  let versions (t : Text) : Option Text :=
    (plural? "version" t).or ((wordGap? "major" t).bind (plural? "version"))
  match versions t with
  | some rest => some (none, rest)
  | none => do
    let (who, rest) ← name t
    some (some who, ← versions (← gap? rest))

def last : Reader Query := fun t => do
  let t ← wordGap? "last" t
  match (count? t).bind gap? with
  | some rest =>
    match namedVersions rest with
    | some (who, rest) => some (.recent who, rest)
    | none => years t
  | none => years t
where
  years (t : Text) : Option (Query × Text) := do
    let rest ← gap? (← amount? t)
    some (.plain, ← plural? "year" rest)

def unreleased : Reader Query := fun t => do
  let (who, rest) ← namedVersions (← wordGap? "unreleased" t)
  some (.recent who, rest)

def number : Reader Nat := fun t => do
  let (digits, rest) ← run Char.isDigit t
  some (← Catalog.number? digits, rest)

def day : Reader Query := fun t => do
  let (year, rest) ← number (← wordGap? "since" t)
  let part (t : Text) : Nat × Text := (((word? "-" t).bind number).getD (1, t))
  let (month, later) := part rest
  let (day, later) := if later.length < rest.length then part later else (1, later)
  some (.since year month day, later)

def comparison? (t : Text) : Option Text :=
  match t with
  | '>' :: '=' :: rest | '<' :: '=' :: rest | '>' :: rest | '<' :: rest => some rest
  | _ => none

def region? (t : Text) : Option (Text × Text) := do
  let rest ← wordGap? "in" (← gap? t)
  let code := (word? "alt-" rest).getD rest
  if (code.take 2).length = 2 ∧ (code.take 2).all Char.isAlpha then
    some (rest.take (rest.length - code.length + 2), code.drop 2)
  else none

def share : Reader Query := fun t => do
  let amount ← ((comparison? t).map (·.dropWhile isGap)).or (wordGap? "cover" t)
  let rest ← word? "%" (← amount? amount)
  match region? rest with
  | some (region, rest) => some (.usage (some region), rest)
  | none => some (.usage none, rest)

def supported : Reader Query := fun t => do
  let t := ((wordGap? "fully" t).or (wordGap? "partially" t)).getD t
  let (feature, rest) ←
    run (fun c => c.isAlphanum || c == '_' || c == '-') (← wordGap? "supports" t)
  some (.supports feature, rest)

def versions : Reader Versions := fun t =>
  let bounds : Option (Versions × Text) := do
    let (first, rest) ← version (← gap? t)
    let rest ← word? "-" (rest.dropWhile isGap)
    let (last, rest) ← version (rest.dropWhile isGap)
    some (.between first last, rest)
  let bound : Option (Versions × Text) := do
    let (bound, rest) ← version ((← comparison? (t.dropWhile isGap)).dropWhile isGap)
    some (.beyond bound, rest)
  let exact : Option (Versions × Text) := do
    let (v, rest) ← version (← gap? t)
    some (.exact v, rest)
  bounds.or (bound.or exact)

def runtime (word : Text) (query : Versions → Query) : Reader Query := fun t => do
  let (versions, rest) ← versions (← word? word t)
  some (query versions, rest)

def browserVersions : Reader Query := fun t => do
  let (name, rest) ← name t
  match versions rest with
  | some (versions, rest) => some (.browser name versions, rest)
  | none =>
    let rest ← gap? rest
    some (.browser name (.exact (rest.take 2)), ← word? "tp" rest)

def phrase (words : List Text) : Reader Query := fun t =>
  match words with
  | [] => none
  | first :: words =>
    let rest := words.foldl (fun rest word => (rest.bind gap?).bind (word? word)) (word? first t)
    rest.map (.plain, ·)

def phrases : List (List Text) := [
  ["firefox", "esr"], ["ff", "esr"], ["fx", "esr"],
  ["operamini", "all"], ["op_mini", "all"],
  ["current", "node"], ["maintained", "node", "versions"],
  ["phantomjs", "1.9"], ["phantomjs", "2.1"],
  ["browserslist", "config"], ["defaults"], ["dead"]]

def extension : Reader Query := fun t => do
  let (name, rest) ←
    run (fun c => c.isAlphanum || ['-', '_', '@', '/', '.'].contains c) (← wordGap? "extends" t)
  some (.package name, rest)

def joint : Reader Bool := fun t =>
  let word (word : Text) : Option Text := ((gap? t).bind (wordGap? word))
  match word "and", word "or", t.dropWhile isGap with
  | some rest, _, _ => some (true, rest)
  | none, some rest, _ => some (false, rest)
  | none, none, ',' :: rest => some (false, rest.dropWhile isGap)
  | none, none, _ => none

/-- Reads a clause of no known form, which is told only from the clause after it. -/
def other : Text → Option (Text × Text)
  | [] => none
  | c :: t =>
    if (joint (c :: t)).isSome then some ([], c :: t)
    else (other t).map fun (text, rest) => (c :: text, rest)

def clause : Reader Query := fun t =>
  let forms : List (Reader Query) :=
    [last, unreleased, day, share, supported, runtime "electron" .electron, runtime "node" .node] ++
      phrases.map phrase ++
      [browserVersions, extension, fun t => (other t).map fun (text, rest) => (.unknown text, rest)]
  forms.findSome? (· t)

structure Clause where
  query : Query
  negated : Bool
  text : Text

def Clause.read : Reader Clause := fun t => do
  let negation := wordGap? "not" t
  let (query, rest) ← clause (negation.getD t)
  some (⟨query, negation.isSome, Text.before t rest⟩, rest)

def laterClauses : (fuel : Nat) → Text → List Clause × Text
  | 0, t => ([], t)
  | fuel + 1, t =>
    match (joint t).bind fun (_, rest) => Clause.read rest with
    | none => ([], t)
    | some (c, rest) =>
      let (cs, rest) := laterClauses fuel rest
      (c :: cs, rest)

def clauses (t : Text) : Except Refusal (List Clause) :=
  let t := Text.trim t
  if t.isEmpty then .ok []
  else
    match Clause.read t with
    | none => .error (.malformed [])
    | some (c, rest) =>
      let (cs, rest) := laterClauses rest.length rest
      if rest.isEmpty then .ok (c :: cs) else .error (.malformed rest)

def packageFault? (name : Text) : Option Text :=
  let hasOwner := name.head? = some '@'
  let own := if hasOwner then ((Text.cutFirst? '/' name).map (·.2)).getD name else name
  let isOwners := hasOwner ∧ own = ("browserslist-config" : Text)
  if (Text.afterPrefix? "browserslist-config-" own).isNone ∧ ¬isOwners then
    some "Browserslist config needs \x60browserslist-config-\x60 prefix."
  else if own.contains '.' then some "\x60.\x60 not allowed in Browserslist config name."
  else none

/-- Checks the names of a query. No features and no packages are known. -/
def check : Query → Except Refusal Unit
  | recent (some name) => named name
  | since year month day =>
    require (1 ≤ month ∧ month ≤ 12 ∧ 1 ≤ day ∧ day ≤ Toml.daysIn year month) (.noDay year month day)
  | usage (some region) => require (Catalog.hasRegion region) (.unknownRegion region)
  | supports feature => .error (.unknownFeature feature)
  | electron (.exact v) => require (Catalog.isReleased Catalog.newestElectron v) (.unknownElectron v)
  | node (.exact v) => require (Catalog.isReleased Catalog.newestNode v) (.unknownNode v)
  | browser name (.exact v) =>
    match Catalog.browser? name with
    | some known => require (known.hasAlike v) (.unknownVersion name v)
    | none => .error (.unknownBrowser name)
  | browser name _ => require (Catalog.browser? name).isSome (.unknownBrowser name)
  | package name =>
    match packageFault? name with
    | some reason => .error (.badPackageName reason)
    | none => .error (.missingPackage name)
  | unknown text => .error (.unknownQuery text)
  | _ => .ok ()
where
  require (ok : Bool) (r : Refusal) : Except Refusal Unit := if ok then .ok () else .error r
  named (name : Text) : Except Refusal Unit :=
    require (([("electron" : Text), "node"] : List Text).contains (Text.lowerAscii name) ||
      (Catalog.browser? name).isSome) (.unknownBrowser name)

/-- Checks queries, which are read as one with commas between them. -/
def checkAll (queries : List Text) : Except Refusal Unit := do
  let clauses ← clauses (Text.join [',', ' '] queries)
  match clauses with
  | [] => .ok ()
  | first :: _ =>
    if first.negated then .error (.startsWithNot first.text)
    else clauses.forM fun c => c.query.check

end Query

end Stylesmith
