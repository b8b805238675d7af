import Coordination.CommandLine.Argument
import Coordination.Text.Blank
/-!
# Log filters

A filter is a list of directives between commas: a level for everything, or a target, with or
without a level, for the messages whose target begins with it.  Of the directives that apply to a
message the one with the longest target decides.
-/

namespace Coordination

/-- How much is logged, from nothing to everything. -/
inductive LogLevel where
  | off
  | error
  | warn
  | info
  | debug
  | trace
deriving DecidableEq, Repr

namespace LogLevel

def all : List LogLevel := [off, error, warn, info, debug, trace]

def name : LogLevel → String
  | off => "OFF"
  | error => "ERROR"
  | warn => "WARN"
  | info => "INFO"
  | debug => "DEBUG"
  | trace => "TRACE"

/-- The place of a level. -/
def rank (l : LogLevel) : Nat := all.idxOf l

/-- The level of a name in any case, or of a place. -/
def ofText? (s : String) : Option LogLevel :=
  match readNumber? s with
  | some n => all[n]?
  | none => all.find? fun l => l.name == s.toUpper

end LogLevel

structure LogDirective where
  /-- What the target of a message has to begin with. -/
  target : String := ""
  level : LogLevel
  /-- Whether the directive is about spans and not about single messages. -/
  aboutSpans : Bool := false
deriving DecidableEq, Repr

namespace LogDirective

/-- The level behind an equals sign; everything if it is empty. -/
def levelBehind (cs : List Char) : Option LogLevel :=
  if cs.isEmpty then some .trace else LogLevel.ofText? (String.ofList cs)

/-- What may follow the brackets of a directive about spans. -/
def closing (target : List Char) : List Char → Option LogDirective
  | [] => some ⟨String.ofList target, .trace, true⟩
  | '=' :: level => (levelBehind level).map fun l => ⟨String.ofList target, l, true⟩
  | _ => none

/-- The rest of a directive about spans behind the opening bracket. -/
def spans (target cs : List Char) : Option LogDirective :=
  match cs.span fun c => c ≠ ']' && c ≠ '\x7b' with
  | (_, ']' :: rest) => closing target rest
  | (_, '\x7b' :: rest) =>
    match rest.span (· ≠ '\x7d') with
    | (_ :: _, '\x7d' :: ']' :: rest) => closing target rest
    | _ => none
  | _ => none

/-- Whether a directive may begin with a character; any letter beyond ASCII may. -/
def mayBegin (c : Char) : Bool :=
  c.isAlphanum || c = '-' || c = ':' || c = '_' || c = '[' || c.toNat ≥ 128

/-- Where a directive ends its first part: at an equals sign or an opening bracket. -/
def splits (c : Char) : Bool := c = '=' || c = '['

/-- The directive of a text.  Blanks around it are skipped when its parts are found, but the parts
are cut out of the text with the blanks. -/
def ofText? (s : String) : Option LogDirective :=
  let cs := s.toList
  -- places are found in `trimmed` and cut in `cs`
  let trimmed := (cs.dropWhile Text.isBlankChar).reverse.dropWhile Text.isBlankChar |>.reverse
  match trimmed with
  | [] => none
  | c :: _ =>
    if !mayBegin c then none
    else
      match trimmed.findIdx? splits with
      | none =>
        match LogLevel.ofText? s with
        | some level => some ⟨"", level, false⟩
        | none => some ⟨s, .trace, false⟩
      | some i =>
        if trimmed[i]? = some '=' then
          (levelBehind (cs.drop (i + 1))).map fun l => ⟨String.ofList (cs.take i), l, false⟩
        else spans (cs.take i) (trimmed.drop (i + 1))

end LogDirective

abbrev LogFilter := List LogDirective

namespace LogFilter

/-- The filter of a text; an empty text shows nothing. -/
def ofText? (s : String) : Option LogFilter :=
  ((Text.split ',' s).filter (· ≠ "")).mapM LogDirective.ofText?

/-- The filter of a text, or what is shown where the text is no filter. -/
def ofText (s : String) : LogFilter := (ofText? s).getD [{ level := .info }]

/-- The directive that decides on a message: of two with the same target the later. -/
def deciding? (f : LogFilter) (target : String) : Option LogDirective :=
  f.foldl (fun best d =>
    if d.aboutSpans || !Text.startsWith d.target target then best
    else match best with
      | none => some d
      | some b => if b.target.utf8ByteSize ≤ d.target.utf8ByteSize then some d else some b) none

def shows (f : LogFilter) (level : LogLevel) (target : String) : Bool :=
  match deciding? f target with
  | some d => level.rank ≤ d.level.rank
  | none => false

end LogFilter

end Coordination
