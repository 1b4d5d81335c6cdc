/-!
# Path patterns

A pattern selects paths. A question mark stands for any character and a star for any run of characters, separators included; brackets stand for one character among their members, or for one that is none of them. Two stars that fill a component stand for any number of whole components. `selects_eq` says that the matcher, whose work is bounded by the product of the two lengths, answers as the pattern's meaning does.
-/

namespace EngineConsole

/-- A member of a bracket: a range of characters, which may be a single one. -/
structure CharacterRange where
  first : Char
  last : Char
deriving DecidableEq, Repr

namespace CharacterRange

def contains (range : CharacterRange) (c : Char) : Bool := range.first ≤ c && c ≤ range.last

/-- The members that the characters in a bracket write: a character, a hyphen and a character make a range, and any other character stands for itself. -/
def ofBracket : List Char → List CharacterRange
  | first :: '-' :: last :: others => ⟨first, last⟩ :: ofBracket others
  | c :: others => ⟨c, c⟩ :: ofBracket others
  | [] => []

end CharacterRange

inductive PatternPart where
  | literal (c : Char)
  | anyCharacter
  | anyRun
  | anyComponents
  | within (ranges : List CharacterRange)
  | without (ranges : List CharacterRange)
deriving DecidableEq, Repr

namespace PatternPart

/-- True if the part, which stands for a single character, can stand for this one. -/
def accepts (part : PatternPart) (c : Char) : Bool :=
  match part with
  | literal expected => c == expected
  | anyCharacter => true
  | within ranges => ranges.any (·.contains c)
  | without ranges => !ranges.any (·.contains c)
  | anyRun | anyComponents => false

end PatternPart

inductive PatternFault where
  | starRun
  | partialComponent
  | openBracket
deriving DecidableEq, Repr

structure PatternError where
  position : Nat
  fault : PatternFault
deriving DecidableEq, Repr

namespace PatternError

def message (error : PatternError) : String :=
  let reason := match error.fault with
    | .starRun => "wildcards are either regular `*` or recursive `**`"
    | .partialComponent => "recursive wildcards must form a single path component"
    | .openBracket => "invalid range pattern"
  s!"Pattern syntax error near position {error.position}: {reason}"

end PatternError

structure PathPattern where
  parts : List PatternPart
deriving DecidableEq, Repr

namespace PathPattern

/-- What follows two stars that fill a component: nothing, or what stands behind the separator. -/
def afterComponent : List Char → Option (List Char)
  | [] => some []
  | '/' :: others => some others
  | _ :: _ => none

/-- The members of a bracket, without the brackets, and what follows it. The first member may be a closing bracket. -/
def splitBracket : List Char → Option (List Char × List Char)
  | [] => none
  | first :: others =>
    match others.dropWhile (· != ']') with
    | [] => none
    | _ :: rest => some (first :: others.takeWhile (· != ']'), rest)

/-- The part that a bracket stands for, and what follows it. -/
def bracket? : List Char → Option (PatternPart × List Char)
  | '!' :: others => (splitBracket others).map fun (members, rest) =>
    (.without (CharacterRange.ofBracket members), rest)
  | others => (splitBracket others).map fun (members, rest) =>
    (.within (CharacterRange.ofBracket members), rest)

/-- The parts that the characters write, where `total` is the length of the whole pattern and `opens` is true if a component begins here. The first number bounds the parts. -/
def partsOf (total : Nat) : Nat → Bool → List Char → Except PatternError (List PatternPart)
  | 0, _, _ => .ok []
  | _ + 1, _, [] => .ok []
  | fuel + 1, opens, c :: others =>
    let position := total - (others.length + 1)
    match c, others with
    | '?', _ => (partsOf total fuel false others).map (.anyCharacter :: ·)
    | '*', '*' :: '*' :: _ => .error ⟨position + 2, .starRun⟩
    | '*', '*' :: rest =>
      if opens then
        match afterComponent rest with
        | some rest => (partsOf total fuel true rest).map (.anyComponents :: ·)
        | none => .error ⟨position + 2, .partialComponent⟩
      else .error ⟨position - 1, .partialComponent⟩
    | '*', _ => (partsOf total fuel false others).map (.anyRun :: ·)
    | '[', _ =>
      match bracket? others with
      | some (part, rest) => (partsOf total fuel false rest).map (part :: ·)
      | none => .error ⟨position, .openBracket⟩
    | _, _ => (partsOf total fuel (c == '/') others).map (.literal c :: ·)

def ofText? (text : String) : Except PatternError PathPattern :=
  let characters := text.toList
  (partsOf characters.length characters.length true characters).map PathPattern.mk

/-! ### What a pattern stands for -/

/-- The list and all that is left of it when characters are taken off its front. -/
def suffixes : List Char → List (List Char)
  | [] => [[]]
  | c :: others => (c :: others) :: suffixes others

/-- What is left when whole components are taken off the front: what stands behind a separator, and nothing at all. -/
def componentSuffixes : List Char → List (List Char)
  | [] => [[]]
  | c :: others => if c = '/' then others :: componentSuffixes others else componentSuffixes others

def matchParts : List PatternPart → List Char → Bool
  | [], characters => characters.isEmpty
  | .anyRun :: parts, characters => (suffixes characters).any (matchParts parts)
  | .anyComponents :: parts, characters =>
    (characters :: componentSuffixes characters).any (matchParts parts)
  | _ :: _, [] => false
  | part :: parts, c :: characters => part.accepts c && matchParts parts characters

/-! ### Matching in steps that the lengths bound

A pattern of many stars would have `matchParts` ask the same question about the same suffix again and again. A row holds the answer of the parts for every suffix of the characters, the whole list first and the empty one last, and the row of one part more is found from it by one pass over the characters. -/

def endRow : List Char → List Bool
  | [] => [true]
  | _ :: characters => false :: endRow characters

/-- The row of a single-character part in front of the parts with the row `row`. -/
def characterRow (accepts : Char → Bool) : List Char → List Bool → List Bool
  | [], _ => [false]
  | c :: characters, row =>
    (accepts c && row.tail.headD false) :: characterRow accepts characters row.tail

/-- For each suffix, whether the row is true of it or of a shorter one. -/
def runRow : List Char → List Bool → List Bool
  | [], row => [row.headD false]
  | _ :: characters, row =>
    let shorter := runRow characters row.tail
    (row.headD false || shorter.headD false) :: shorter

/-- For each suffix, whether the row is true of what is left when whole components are taken off its front. -/
def componentRow : List Char → List Bool → List Bool
  | [], row => [row.headD false]
  | c :: characters, row =>
    let behind := componentRow characters row.tail
    ((c == '/' && row.tail.headD false) || behind.headD false) :: behind

def matchRow : List PatternPart → List Char → List Bool
  | [], characters => endRow characters
  | .anyRun :: parts, characters => runRow characters (matchRow parts characters)
  | .anyComponents :: parts, characters =>
    let row := matchRow parts characters
    List.zipWith (· || ·) row (componentRow characters row)
  | part :: parts, characters => characterRow part.accepts characters (matchRow parts characters)

def selects (pattern : PathPattern) (text : String) : Bool :=
  (matchRow pattern.parts text.toList).headD false

/-- The row of a question holds its answer for every suffix. -/
private def answers (question : List Char → Bool) (characters : List Char) : List Bool :=
  (suffixes characters).map question

private theorem answers_nil (question : List Char → Bool) :
    answers question [] = [question []] := rfl

private theorem answers_cons (question : List Char → Bool) (c : Char) (characters : List Char) :
    answers question (c :: characters)
      = question (c :: characters) :: answers question characters := rfl

private theorem headD_answers (question : List Char → Bool) (characters : List Char) :
    (answers question characters).headD false = question characters := by
  cases characters <;> rfl

private theorem endRow_eq (characters : List Char) :
    endRow characters = answers (matchParts []) characters := by
  induction characters with
  | nil => rfl
  | cons c characters ih => rw [endRow, answers_cons, ih]; rfl

private theorem characterRow_eq (accepts : Char → Bool) (question asked : List Char → Bool)
    (nothing : asked [] = false)
    (step : ∀ c characters, asked (c :: characters) = (accepts c && question characters))
    (characters : List Char) :
    characterRow accepts characters (answers question characters) = answers asked characters := by
  induction characters with
  | nil => simp only [characterRow, answers_nil, nothing]
  | cons c characters ih =>
    simp only [characterRow, answers_cons, List.tail_cons, headD_answers, step, ih]

private theorem runRow_eq (question : List Char → Bool) (characters : List Char) :
    runRow characters (answers question characters)
      = answers (fun rest => (suffixes rest).any question) characters := by
  induction characters with
  | nil => simp [runRow, answers_nil, suffixes]
  | cons c characters ih =>
    simp only [runRow, answers_cons, List.tail_cons, List.headD_cons, ih, headD_answers]
    simp [suffixes]

private theorem componentRow_eq (question : List Char → Bool) (characters : List Char) :
    componentRow characters (answers question characters)
      = answers (fun rest => (componentSuffixes rest).any question) characters := by
  induction characters with
  | nil => simp [componentRow, answers_nil, componentSuffixes]
  | cons c characters ih =>
    simp only [componentRow, answers_cons, List.tail_cons, ih, headD_answers]
    by_cases h : c = '/' <;> simp [componentSuffixes, h]

private theorem matchRow_eq (parts : List PatternPart) (characters : List Char) :
    matchRow parts characters = answers (matchParts parts) characters := by
  induction parts with
  | nil => exact endRow_eq characters
  | cons part parts ih =>
    cases part with
    | anyRun => rw [matchRow, ih, runRow_eq]; rfl
    | anyComponents =>
      simp only [matchRow, ih, componentRow_eq]
      simp [answers, List.zipWith_map, List.zipWith_self, matchParts]
    | _ =>
      rw [matchRow, ih]
      · exact characterRow_eq _ _ _ rfl (fun _ _ => rfl) characters
      all_goals simp

/-- A pattern selects a text exactly if its parts stand for all of its characters. -/
theorem selects_eq (pattern : PathPattern) (text : String) :
    pattern.selects text = matchParts pattern.parts text.toList := by
  rw [selects, matchRow_eq, headD_answers]

end PathPattern

end EngineConsole
