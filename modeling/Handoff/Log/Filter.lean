import Handoff.Log.Directive

/-!
# Log filters

A filter is a list of directives with commas between them.  Of the directives that concern a subject
the most specific one decides, and of equally specific ones the last one.  Main statement: what
decides is one of the directives, and it concerns the subject.
-/

namespace Handoff.Log

def words (filter : String) : List String :=
  (filter.splitOn ",").filter fun word => !word.isEmpty

/-- The directives that count.  Those of an overriding filter do if all of its words are directives;
of the other one the words that are none are passed over, and if nothing is left only errors are
logged. -/
def directives (filter : String) (override : Option String) : List Directive :=
  match override.bind fun filter => (words filter).mapM Directive.ofWord? with
  | some found => found
  | none =>
    match (words filter).filterMap Directive.ofWord? with
    | [] => [.upTo (some .error)]
    | found => found

/-- The more specific one of two directives, the later one if neither is. -/
def moreSpecific (earlier later : Directive) : Directive :=
  if earlier.isAtMostAsSpecific later then later else earlier

/-- The directive that decides about a subject. -/
def deciding (directives : List Directive) (subject : Subject) : Option Directive :=
  match directives.filter (·.concerns subject) with
  | [] => none
  | first :: rest => some (rest.foldl moreSpecific first)

/-- Whether a subject is logged at a level.  It is not if no directive concerns it. -/
def isLogged (directives : List Directive) (subject : Subject) (level : Level) : Bool :=
  (deciding directives subject).any fun directive =>
    directive.level.any fun limit => level.rank ≤ limit.rank

theorem foldl_moreSpecific_mem (first : Directive) (rest : List Directive) :
    rest.foldl moreSpecific first ∈ first :: rest := by
  induction rest generalizing first with
  | nil => simp
  | cons next rest ih =>
    rcases List.mem_cons.mp (ih (moreSpecific first next)) with same | mem
    · rw [List.foldl_cons, same]
      unfold moreSpecific
      split <;> simp
    · exact List.mem_cons_of_mem _ (List.mem_cons_of_mem _ mem)

/-- What decides about a subject is one of the directives that concern it. -/
theorem mem_of_deciding {directives : List Directive} {subject : Subject} {found : Directive}
    (decides : deciding directives subject = some found) :
    found ∈ directives ∧ found.concerns subject = true := by
  unfold deciding at decides
  split at decides
  · cases decides
  · rename_i first rest concerned
    cases decides
    have mem := foldl_moreSpecific_mem first rest
    rw [← concerned] at mem
    exact List.mem_filter.mp mem

end Handoff.Log
