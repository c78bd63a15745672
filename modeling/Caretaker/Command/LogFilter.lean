import Caretaker.Event
import Caretaker.Text.Split

/-!
# Log filters

Which events are shown is said in directives with commas between them: a level for everything, or a
target with a level for what is logged under it.  The directive with the longest target that fits
decides.  Without any directive only errors are shown.
-/

namespace Caretaker.Command

/-- The least important level that is shown; none where nothing is. -/
abbrev Threshold := Option Level

namespace Threshold

/-- The thresholds in the order of their numbers. -/
def all : List (String × Threshold) :=
  [("off", none), ("error", some .error), ("warn", some .warn), ("info", some .info),
    ("debug", some .debug), ("trace", some .trace)]

/-- The threshold of a name, in any case, or of a number. -/
def parse? (text : List Char) : Option Threshold :=
  let name := String.ofList (text.map Char.toLower)
  match all.find? (·.1 == name) with
  | some (_, threshold) => some threshold
  | none => (all.zipIdx.find? fun (_, i) => toString i == name).map (·.1.2)

/-- Whether an event of a level is shown. -/
def shows (level : Level) : Threshold → Bool
  | none => false
  | some least => least.rank ≤ level.rank

end Threshold

/-- One rule of a filter. -/
structure Directive where
  /-- What the targets start with that it is about; none for all of them. -/
  target : Option String := none
  threshold : Threshold := some .trace
  /-- Whether it is about spans, of which there are none here. -/
  inSpan : Bool := false
deriving DecidableEq, Repr

namespace Directive

/-- A character of a target. -/
def isTargetPart (c : Char) : Bool := c.isAlphanum || c == '_' || c == ':' || c == '-'

/-- The threshold after a target: none is the most detailed one. -/
def threshold? : List Char → Option Threshold
  | [] | ['='] => some (some .trace)
  | '=' :: level => Threshold.parse? level
  | _ => none

/-- The span in brackets at the start of a text, and what comes after it. -/
def span? : List Char → Option (List Char)
  | '[' :: text => (Text.splitFirst? [']'] text).map (·.2)
  | _ => none

/-- The directive that a text spells. -/
def parse? (text : List Char) : Option Directive :=
  match Threshold.parse? text with
  | some threshold => some { threshold }
  | none =>
    let target := text.takeWhile isTargetPart
    let rest := text.dropWhile isTargetPart
    let named := if target.isEmpty then none else some (String.ofList target)
    match span? rest with
    | some rest =>
      (threshold? rest).map fun threshold => { target := named, threshold, inSpan := true }
    | none =>
      if target.isEmpty then none
      else (threshold? rest).map fun threshold => { target := named, threshold }

/-- Whether a directive is about a target. -/
def fits (target : String) (d : Directive) : Bool :=
  !d.inSpan && d.target.all fun start => (Text.dropPattern? start.toList target.toList).isSome

/-- How narrow a directive is. -/
def length (d : Directive) : Nat := (d.target.map fun start => start.length + 1).getD 0

end Directive

/-- Rules for what is shown. -/
structure LogFilter where
  directives : List Directive
deriving DecidableEq, Repr

namespace LogFilter

/-- The texts of the directives of a filter. -/
def parts (text : String) : List (List Char) :=
  (Text.splitOn ',' text.toList).filter (!·.isEmpty)

/-- The filter that a text spells. -/
def parse? (text : String) : Option LogFilter :=
  ((parts text).mapM Directive.parse?).map .mk

/-- The filter that a text spells but for the parts that are no directives, and these. -/
def parseLeniently (text : String) : LogFilter × List String :=
  let parts := parts text
  (⟨parts.filterMap Directive.parse?⟩,
    (parts.filter fun part => (Directive.parse? part).isNone).map String.ofList)

/-- The directive that decides about a target: of those that fit one of the longest, and of these
the last. -/
def deciding? (target : String) (filter : LogFilter) : Option Directive :=
  (filter.directives.filter (·.fits target)).foldl
    (fun best d =>
      match best with
      | some b => if b.length ≤ d.length then some d else best
      | none => some d)
    none

/-- Whether a filter shows an event. -/
def shows (event : Event) (filter : LogFilter) : Bool :=
  if filter.directives.isEmpty then Threshold.shows event.level (some .error)
  else
    match filter.deciding? event.component.target with
    | some d => d.threshold.shows event.level
    | none => false

end LogFilter
end Caretaker.Command
