import EngineConsole.Proofs.Message.Elements
import EngineConsole.Proofs.Message.Reordering
import Mathlib.Data.List.Nodup
import Mathlib.Data.Sum.Basic

/-!
# Which alternative is chosen

The records of a choice act on it one after the other, and the last one says which alternative is chosen. What it carries depends on how far back the records of the same alternative go without one of another in between: they are merged in their order, into what the alternative held before if they reach back to the start, and else into the default. The records of other fields may stand anywhere between them.
-/

namespace EngineConsole

/-! ### The alternatives of a choice -/

/-- What an alternative carries, by the type of its content. -/
inductive Carried : Type → Type 1 where
  /-- Nothing but that it is chosen. -/
  | signal : Carried Unit
  | scalar {α : Type} (kind : Scalar α) : Carried α
  | message {μ : Type} (format : Format μ) : Carried μ

namespace Carried

def wireType {β : Type} : Carried β → WireType
  | signal | message _ => .delimited
  | scalar kind => kind.wireType

def default {β : Type} : Carried β → β
  | signal => ()
  | scalar kind => kind.default
  | message format => format.default

end Carried

/-- One alternative among the kinds `κ`: the number of its records, what they carry and the kind that this makes. -/
structure Alternative (κ : Type) where
  Content : Type
  number : Nat
  carried : Carried Content
  place : Content → κ

namespace Alternative

variable {κ : Type}

def tag (alternative : Alternative κ) : Tag := ⟨alternative.number, alternative.carried.wireType⟩

def addressed (alternative : Alternative κ) (record : Bytes) : Bool :=
  (Tag.read (.ofBytes record)).1 == some alternative.tag

def anyAddressed (alternatives : List (Alternative κ)) (record : Bytes) : Bool :=
  alternatives.any fun alternative => alternative.addressed record

/-- The content into which the first record of a run is merged: that of the kind chosen before, if it is of this alternative, and else the default. -/
inductive Begins (alternative : Alternative κ) (chosen : Option κ) : alternative.Content → Prop where
  | goesOn {content : alternative.Content} (same : chosen = some (alternative.place content)) :
    Begins alternative chosen content
  | afresh (other : ∀ content, chosen ≠ some (alternative.place content)) :
    Begins alternative chosen alternative.carried.default

/-- The kinds tell the alternative and its content. -/
structure Distinct (alternatives : List (Alternative κ)) : Prop where
  place : ∀ alternative ∈ alternatives, Function.Injective alternative.place
  apart : ∀ alternative ∈ alternatives, ∀ other ∈ alternatives, ∀ content content',
    alternative.place content = other.place content' → alternative = other

end Alternative

/-- The alternatives of a choice among the kinds that `join` makes of their contents. -/
def Alternatives.kinds {α κ : Type} : Alternatives α → (α → κ) → List (Alternative κ)
  | .nil, _ => []
  | .signal number _ others, join => ⟨Unit, number, .signal, join ∘ .inl⟩ :: others.kinds (join ∘ .inr)
  | .scalar number _ kind others, join =>
    ⟨_, number, .scalar kind, join ∘ .inl⟩ :: others.kinds (join ∘ .inr)
  | .message number _ format others, join =>
    ⟨_, number, .message format, join ∘ .inl⟩ :: others.kinds (join ∘ .inr)

theorem Alternative.Distinct.cons {α β κ : Type} {join : α ⊕ β → κ} (hjoin : Function.Injective join)
    {others : List (Alternative κ)} (h : Distinct others)
    (hplace : ∀ other ∈ others, ∀ content, ∃ value, other.place content = join (.inr value))
    (number : Nat) (carried : Carried α) :
    Distinct (⟨α, number, carried, join ∘ .inl⟩ :: others) where
  place := List.forall_mem_cons.mpr ⟨hjoin.comp Sum.inl_injective, h.place⟩
  apart := by
    have hleft : ∀ other ∈ others, ∀ content content', join (.inl content) ≠ other.place content' := by
      intro other hother content content' hsame
      obtain ⟨value, hvalue⟩ := hplace other hother content'
      cases hjoin (hsame.trans hvalue)
    intro alternative hmem other hother content content' hsame
    rcases List.mem_cons.mp hmem with rfl | hmem
    · rcases List.mem_cons.mp hother with rfl | hother
      · rfl
      · exact absurd hsame (hleft other hother content content')
    · rcases List.mem_cons.mp hother with rfl | hother
      · exact absurd hsame.symm (hleft alternative hmem content' content)
      · exact h.apart alternative hmem other hother content content' hsame

namespace Alternatives

variable {κ : Type}

theorem place_kinds {α : Type} : (alternatives : Alternatives α) → (join : α → κ) →
    ∀ alternative ∈ alternatives.kinds join, ∀ content, ∃ value, alternative.place content = join value
  | .nil, _ => List.forall_mem_nil _
  | .signal _ _ others, join | .scalar _ _ _ others, join | .message _ _ _ others, join => by
    refine List.forall_mem_cons.mpr ⟨fun content => ⟨.inl content, rfl⟩, ?_⟩
    intro alternative hmem content
    obtain ⟨value, hvalue⟩ := others.place_kinds (join ∘ .inr) alternative hmem content
    exact ⟨.inr value, hvalue⟩

theorem distinct_kinds {α : Type} : (alternatives : Alternatives α) → {join : α → κ} →
    Function.Injective join → Alternative.Distinct (alternatives.kinds join)
  | .nil, _, _ => ⟨List.forall_mem_nil _, List.forall_mem_nil _⟩
  | .signal number _ others, _, hjoin =>
    (others.distinct_kinds (hjoin.comp Sum.inr_injective)).cons hjoin (others.place_kinds _) number
      .signal
  | .scalar number _ kind others, _, hjoin =>
    (others.distinct_kinds (hjoin.comp Sum.inr_injective)).cons hjoin (others.place_kinds _) number
      (.scalar kind)
  | .message number _ format others, _, hjoin =>
    (others.distinct_kinds (hjoin.comp Sum.inr_injective)).cons hjoin (others.place_kinds _) number
      (.message format)

theorem map_number_kinds {α : Type} : (alternatives : Alternatives α) → (join : α → κ) →
    (alternatives.kinds join).map Alternative.number = alternatives.numbers
  | .nil, _ => rfl
  | .signal number _ others, join | .scalar number _ _ others, join
  | .message number _ _ others, join => by
    rw [kinds, List.map_cons, numbers, others.map_number_kinds]

theorem accepts_eq_any_kinds {α : Type} {tag : Tag} : (alternatives : Alternatives α) → (join : α → κ) →
    alternatives.accepts tag = (alternatives.kinds join).any fun alternative => tag == alternative.tag
  | .nil, _ => rfl
  | .signal number _ others, join | .scalar number _ _ others, join
  | .message number _ _ others, join => by
    rw [kinds, List.any_cons, accepts, others.accepts_eq_any_kinds (join ∘ .inr)]
    rfl

end Alternatives

/-! ### One record -/

def Reader.behindTag (record : Bytes) : Reader := (Tag.read (.ofBytes record)).2

theorem Reader.willing_behindTag (record : Bytes) : (behindTag record).source.supply.Willing := by
  obtain ⟨count, hadvanced⟩ := Tag.read_moves (.ofBytes record)
  rw [behindTag, hadvanced.supply]
  trivial

/-- Merges the span behind a length into a message, as if its bytes were all there is. -/
def Format.mergeDeclared? {μ : Type} (format : Format μ) (old : μ) (reader : Reader) : Option μ :=
  let merged := format.merge old (.ofBytes (Delimited.declared reader))
  if merged.error.isNone then some merged.value else none

theorem Format.mergeDeclared?_of_merge {μ : Type} {format : Format μ} {old : μ} {reader : Reader}
    (hwilling : reader.source.supply.Willing)
    (hnone : (Delimited.merge format.merge old reader).error = none) :
    format.mergeDeclared? old reader = some (Delimited.merge format.merge old reader).value := by
  cases hread : Varint.readLength reader with
  | error error behind =>
    rw [Delimited.merge, hread] at hnone
    cases hnone
  | ok length behind =>
    rw [Delimited.merge, hread] at hnone ⊢
    have hadvanced := Delimited.advanced_of_mergeSpan (format.moves_merge old) hnone
    obtain ⟨hoffers, rfl⟩ := offers_declared hread hwilling hadvanced
    have halike := Delimited.alike_mergeSpan_ofBytes (format.follows_merge .window old) hoffers
    have herror := halike.error_eq
    rw [hnone] at herror
    rw [mergeDeclared?, ← herror, ← halike.value]
    rfl

/-- What one record, from behind its tag, makes of the content. -/
def Carried.Takes {β : Type} (number : Nat) : Carried β → β → Reader → β → Prop
  | .signal, _, _, _ => True
  | .scalar kind, _, reader, content => (kind.fetch number reader).result = .ok content
  | .message format, old, reader, content => format.mergeDeclared? old reader = some content

namespace Alternative

/-- A record chooses the alternative of its tag, with the content that it makes of what the alternative held before. -/
inductive Chooses {κ : Type} (alternatives : List (Alternative κ)) (tag : Tag) (reader : Reader)
    (chosen : Option κ) : Option κ → Prop where
  | intro {alternative : Alternative κ} {base content : alternative.Content}
    (mem : alternative ∈ alternatives) (tag_eq : tag = alternative.tag)
    (begins : alternative.Begins chosen base)
    (takes : alternative.carried.Takes alternative.number base reader content) :
    Chooses alternatives tag reader chosen (some (alternative.place content))

variable {α β κ : Type} {alternatives others : List (Alternative κ)} {tag : Tag} {reader : Reader}
  {chosen next : Option κ}

theorem chooses_left {number : Nat} {carried : Carried α} {join : α ⊕ β → κ} {inner : Option (α ⊕ β)}
    {content : α} (hinner : ∀ value, chosen = some (join value) ↔ inner = some value)
    (htag : tag = ⟨number, carried.wireType⟩)
    (htakes : carried.Takes number ((inner.bind Sum.getLeft?).getD carried.default) reader content) :
    Chooses (⟨α, number, carried, join ∘ .inl⟩ :: others) tag reader chosen
      (some (join (.inl content))) := by
  have hbegins : Begins ⟨α, number, carried, join ∘ .inl⟩ chosen
      ((inner.bind Sum.getLeft?).getD carried.default) := by
    rcases inner with _ | held | kind
    · exact .afresh fun _ hsame => nomatch (hinner _).mp hsame
    · exact .goesOn ((hinner _).mpr rfl)
    · exact .afresh fun _ hsame => nomatch (hinner _).mp hsame
  exact .intro List.mem_cons_self htag hbegins htakes

theorem Chooses.or (h : Chooses alternatives tag reader chosen next) (old : Option κ) :
    Chooses alternatives tag reader chosen (next.or old) := by
  cases h with
  | intro mem tag_eq begins takes => exact .intro mem tag_eq begins takes

theorem Chooses.right (first : Alternative κ) {join : α ⊕ β → κ} {next : Option β}
    (h : Chooses others tag reader chosen (next.map (join ∘ .inr))) :
    Chooses (first :: others) tag reader chosen ((next.map .inr).map join) := by
  rw [Option.map_map]
  generalize next.map (join ∘ .inr) = kind at h ⊢
  cases h with
  | intro mem tag_eq begins takes => exact .intro (List.mem_cons_of_mem first mem) tag_eq begins takes

theorem chosen_right {join : α ⊕ β → κ} {inner : Option (α ⊕ β)}
    (hinner : ∀ value, chosen = some (join value) ↔ inner = some value) (value : β) :
    chosen = some ((join ∘ .inr) value) ↔ inner.bind Sum.getRight? = some value := by
  rw [Function.comp_apply, hinner]
  rcases inner with _ | held | kind <;> simp

end Alternative

/-- A record that is merged chooses the alternative of its tag. What was chosen before is given as a kind and as a content, which say the same. -/
theorem Alternatives.chooses_merge {α κ : Type} {tag : Tag} {reader : Reader} {chosen : Option κ} :
    (alternatives : Alternatives α) → alternatives.accepts tag = true → {join : α → κ} →
    {inner : Option α} → (∀ value, chosen = some (join value) ↔ inner = some value) →
    reader.source.supply.Willing → (alternatives.merge tag inner reader).error = none →
    Alternative.Chooses (alternatives.kinds join) tag reader chosen
      ((alternatives.merge tag inner reader).value.map join)
  | .signal number name others, haccepts, join, inner, hinner, hwilling, hnone => by
    rw [Alternatives.accepts, Bool.or_eq_true] at haccepts
    rw [Alternatives.merge] at hnone ⊢
    split at hnone
    · rename_i htag
      have herror : (Delimited.merge mergeNothing () reader).error = none := hnone
      rw [if_pos htag, Merged.map, herror]
      exact Alternative.chooses_left hinner (beq_iff_eq.mp htag) trivial
    · rename_i htag
      rw [if_neg htag]
      have hothers := others.chooses_merge (haccepts.resolve_left htag)
        (Alternative.chosen_right hinner) hwilling hnone
      exact hothers.right _
  | .scalar number name kind others, haccepts, join, inner, hinner, hwilling, hnone => by
    rw [Alternatives.accepts, Bool.or_eq_true] at haccepts
    rw [Alternatives.merge] at hnone ⊢
    split at hnone
    · rename_i htag
      rw [if_pos htag]
      rw [Fetched.assign] at hnone ⊢
      split at hnone
      · rename_i content hresult
        exact Alternative.chooses_left hinner (beq_iff_eq.mp htag) hresult
      · cases hnone
    · rename_i htag
      rw [if_neg htag]
      have hothers := others.chooses_merge (haccepts.resolve_left htag)
        (Alternative.chosen_right hinner) hwilling hnone
      exact hothers.right _
  | .message number name format others, haccepts, join, inner, hinner, hwilling, hnone => by
    rw [Alternatives.accepts, Bool.or_eq_true] at haccepts
    rw [Alternatives.merge] at hnone ⊢
    split at hnone
    · rename_i htag
      rw [if_pos htag]
      exact Alternative.chooses_left hinner (beq_iff_eq.mp htag)
        (Format.mergeDeclared?_of_merge hwilling hnone)
    · rename_i htag
      rw [if_neg htag]
      have hothers := others.chooses_merge (haccepts.resolve_left htag)
        (Alternative.chosen_right hinner) hwilling hnone
      exact hothers.right _

/-! ### A run of records -/

/-- What the records of one alternative, none of another between them, make of the content: the last scalar is kept, and messages are merged one after the other. -/
def Carried.Merges {β : Type} (number : Nat) : Carried β → β → List Bytes → β → Prop
  | .signal, _, _, _ => True
  | .scalar kind, _, run, content => ∃ record, run.getLast? = some record ∧
      (kind.fetch number (Reader.behindTag record)).result = .ok content
  | .message format, base, run, content =>
    run.foldlM (fun old record => format.mergeDeclared? old (Reader.behindTag record)) base =
      some content

namespace Carried

variable {β : Type} {number : Nat} {carried : Carried β} {base middle content : β} {run : List Bytes}
  {record : Bytes}

theorem Takes.merges (h : carried.Takes number base (Reader.behindTag record) content) :
    carried.Merges number base [record] content := by
  cases carried with
  | signal => trivial
  | scalar kind => exact ⟨record, rfl, h⟩
  | message format =>
    rw [Merges, List.foldlM_cons]
    exact Option.bind_eq_some_iff.mpr ⟨content, h, rfl⟩

theorem Merges.snoc (h : carried.Merges number base run middle)
    (hrecord : carried.Takes number middle (Reader.behindTag record) content) :
    carried.Merges number base (run ++ [record]) content := by
  cases carried with
  | signal => trivial
  | scalar kind => exact ⟨record, List.getLast?_concat, hrecord⟩
  | message format =>
    rw [Merges, List.foldlM_append]
    exact Option.bind_eq_some_iff.mpr ⟨middle, h, hrecord.merges⟩

theorem Merges.unique {other : β} (h : carried.Merges number base run content)
    (h' : carried.Merges number base run other) : content = other := by
  cases carried with
  | signal => rfl
  | scalar kind =>
    obtain ⟨record, hlast, hcontent⟩ := h
    obtain ⟨record', hlast', hother⟩ := h'
    obtain rfl : record = record' := Option.some.inj (hlast.symm.trans hlast')
    exact Except.ok.inj (hcontent.symm.trans hother)
  | message format => exact Option.some.inj (h.symm.trans h')

end Carried

namespace Alternative

variable {κ : Type} {alternatives : List (Alternative κ)} {start chosen next : Option κ}
  {records : List Bytes} {record : Bytes}

/-- What the records of a choice make of it, from `start`: without any it stays, and otherwise the alternative of the last record is chosen, with what the trailing run of its records has merged. The run goes on from `start` if it is all there is, and afresh behind a record of another alternative. -/
inductive Selected (alternatives : List (Alternative κ)) (start : Option κ) :
    List Bytes → Option κ → Prop where
  | unchanged : Selected alternatives start [] start
  | chosen {alternative : Alternative κ} {base content : alternative.Content} {front run : List Bytes}
    (mem : alternative ∈ alternatives)
    (nonempty : run ≠ [])
    (run_addressed : ∀ record ∈ run, alternative.addressed record = true)
    (front_other : ∀ record ∈ front.getLast?, alternative.addressed record = false)
    (begins : alternative.Begins (if front = [] then start else none) base)
    (merges : alternative.carried.Merges alternative.number base run content) :
    Selected alternatives start (front ++ run) (some (alternative.place content))

theorem addressed_iff (alternative : Alternative κ) {tag : Tag}
    (h : (Tag.read (.ofBytes record)).1 = some tag) :
    alternative.addressed record = true ↔ tag = alternative.tag := by
  rw [addressed, h, beq_iff_eq, Option.some_inj]

theorem eq_of_addressed (hnodup : (alternatives.map number).Nodup) {alternative other : Alternative κ}
    (hmem : alternative ∈ alternatives) (hother : other ∈ alternatives)
    (h : alternative.addressed record = true) (h' : other.addressed record = true) :
    alternative = other := by
  rw [addressed, beq_iff_eq] at h h'
  have htag : alternative.tag = other.tag := Option.some.inj (h.symm.trans h')
  exact List.inj_on_of_nodup_map hnodup hmem hother (congrArg Tag.number htag)

theorem Begins.eq_of_place {alternative : Alternative κ} {base content : alternative.Content}
    (hplace : Function.Injective alternative.place)
    (h : alternative.Begins (some (alternative.place content)) base) : base = content := by
  cases h with
  | goesOn same => exact (hplace (Option.some.inj same)).symm
  | afresh other => exact absurd rfl (other content)

theorem Begins.none_of_ne (hdistinct : Distinct alternatives) {alternative other : Alternative κ}
    (hmem : alternative ∈ alternatives) (hother : other ∈ alternatives) (hne : alternative ≠ other)
    {base : alternative.Content} {content : other.Content}
    (h : alternative.Begins (some (other.place content)) base) : alternative.Begins none base := by
  cases h with
  | goesOn same =>
    exact absurd (hdistinct.apart _ hmem _ hother _ _ (Option.some.inj same).symm) hne
  | afresh _ => exact .afresh fun _ => nofun

theorem Begins.unique {alternative : Alternative κ} (hplace : Function.Injective alternative.place)
    {base base' : alternative.Content} (h : alternative.Begins chosen base)
    (h' : alternative.Begins chosen base') : base = base' := by
  cases h with
  | goesOn same =>
    subst same
    exact (h'.eq_of_place hplace).symm
  | afresh other =>
    cases h' with
    | goesOn same => exact absurd same (other _)
    | afresh _ => rfl

theorem eq_nil_of_trailing {alternative : Alternative κ} {front more : List Bytes}
    (hfront : ∀ record ∈ (front ++ more).getLast?, alternative.addressed record = false)
    (hmore : ∀ record ∈ more, alternative.addressed record = true) : more = [] := by
  by_contra hne
  rw [List.getLast?_append_of_ne_nil front hne, List.getLast?_eq_some_getLast hne] at hfront
  have hlast := hmore _ (List.getLast_mem hne)
  rw [hfront _ rfl] at hlast
  cases hlast

/-- The records determine the trailing run of an alternative. -/
theorem eq_of_trailing {alternative : Alternative κ} {front front' run run' : List Bytes}
    (h : front ++ run = front' ++ run')
    (hfront : ∀ record ∈ front.getLast?, alternative.addressed record = false)
    (hfront' : ∀ record ∈ front'.getLast?, alternative.addressed record = false)
    (hrun : ∀ record ∈ run, alternative.addressed record = true)
    (hrun' : ∀ record ∈ run', alternative.addressed record = true) : front = front' ∧ run = run' := by
  rcases List.append_eq_append_iff.mp h with ⟨more, rfl, rfl⟩ | ⟨more, rfl, rfl⟩
  · obtain rfl := eq_nil_of_trailing hfront' (List.forall_mem_append.mp hrun).1
    exact ⟨(List.append_nil front).symm, rfl⟩
  · obtain rfl := eq_nil_of_trailing hfront (List.forall_mem_append.mp hrun').1
    exact ⟨List.append_nil front', rfl⟩

/-- The records determine the kind that they select. -/
theorem Selected.unique (hdistinct : Distinct alternatives) (hnodup : (alternatives.map number).Nodup)
    {other : Option κ} (h : Selected alternatives start records next)
    (h' : Selected alternatives start records other) : next = other := by
  cases h with
  | unchanged =>
    generalize hrecords : ([] : List Bytes) = records at h'
    cases h' with
    | unchanged => rfl
    | chosen _ nonempty => exact absurd (List.append_eq_nil_iff.mp hrecords.symm).2 nonempty
  | @chosen alternative base content front run mem nonempty run_addressed front_other begins merges =>
    generalize hrecords : front ++ run = records at h'
    cases h' with
    | unchanged => exact absurd (List.append_eq_nil_iff.mp hrecords).2 nonempty
    | @chosen alternative' base' content' front' run' mem' nonempty' run_addressed' front_other'
        begins' merges' =>
      -- the last record says which alternative it is, and the run goes back to one of another
      have hlast : run.getLast? = run'.getLast? := by
        rw [← List.getLast?_append_of_ne_nil front nonempty, hrecords,
          List.getLast?_append_of_ne_nil front' nonempty']
      have hrecord := List.getLast?_eq_some_getLast nonempty
      obtain rfl := eq_of_addressed hnodup mem mem'
        (run_addressed _ (List.mem_of_getLast? hrecord))
        (run_addressed' _ (List.mem_of_getLast? (hlast ▸ hrecord)))
      obtain ⟨rfl, rfl⟩ :=
        eq_of_trailing hrecords front_other front_other' run_addressed run_addressed'
      obtain rfl := begins.unique (hdistinct.place _ mem) begins'
      rw [merges.unique merges']

/-- One more record goes on with the trailing run, or it begins another. -/
theorem Selected.snoc (h : Selected alternatives start records chosen)
    (hdistinct : Distinct alternatives) (hnodup : (alternatives.map number).Nodup) {tag : Tag}
    (hread : (Tag.read (.ofBytes record)).1 = some tag)
    (hchooses : Chooses alternatives tag (Reader.behindTag record) chosen next) :
    Selected alternatives start (records ++ [record]) next := by
  obtain @⟨alternative, base, content, mem, tag_eq, begins, takes⟩ := hchooses
  have haddressed : alternative.addressed record = true := (alternative.addressed_iff hread).mpr tag_eq
  have hsingle : ∀ other ∈ [record], alternative.addressed other = true :=
    List.forall_mem_singleton.mpr haddressed
  cases h with
  | unchanged =>
    show Selected alternatives start ([] ++ [record]) _
    exact .chosen mem (List.cons_ne_nil record []) hsingle (by simp) begins takes.merges
  | @chosen last base' middle front run mem' nonempty run_addressed front_other begins' merges =>
    by_cases hsame : alternative = last
    · subst hsame
      obtain rfl := begins.eq_of_place (hdistinct.place _ mem)
      rw [List.append_assoc]
      exact .chosen mem (by simp) (List.forall_mem_append.mpr ⟨run_addressed, hsingle⟩) front_other
        begins' (merges.snoc takes)
    · have hbehind : (front ++ run).getLast? = run.getLast? :=
        List.getLast?_append_of_ne_nil front nonempty
      have hother : ∀ other ∈ (front ++ run).getLast?, alternative.addressed other = false := by
        intro other hlast
        rw [hbehind] at hlast
        have hrun := run_addressed other (List.mem_of_getLast? hlast)
        by_contra haddressed
        exact hsame (eq_of_addressed hnodup mem mem' (by simpa using haddressed) hrun)
      have hafresh := begins.none_of_ne hdistinct mem mem' hsame
      refine .chosen mem (List.cons_ne_nil record []) hsingle hother ?_ takes.merges
      rwa [if_neg (by simp [nonempty])]

end Alternative

/-! ### The records of a choice -/

section

variable {κ α : Type} {name : String} {alternatives : Alternatives α} {split : κ → α} {join : α → κ}
  {join_split : ∀ kind, join (split kind) = kind} {split_join : ∀ value, split (join value) = value}

theorem eq_some_join_iff (join_split : ∀ kind, join (split kind) = kind)
    (split_join : ∀ value, split (join value) = value) (chosen : Option κ) (value : α) :
    chosen = some (join value) ↔ chosen.map split = some value := by
  rw [Option.map_eq_some_iff]
  constructor
  · rintro rfl
    exact ⟨join value, rfl, split_join value⟩
  · rintro ⟨kind, rfl, rfl⟩
    rw [join_split]

theorem Field.addressed_choice :
    (Field.choice name alternatives split join join_split split_join).addressed =
      Alternative.anyAddressed (alternatives.kinds join) := by
  funext record
  rw [Alternative.anyAddressed, addressed]
  cases hfound : (Tag.read (.ofBytes record)).1 with
  | none => simp [Alternative.addressed, hfound]
  | some tag =>
    rw [Option.any_some, accepts, alternatives.accepts_eq_any_kinds join]
    congr 1
    funext alternative
    rw [Alternative.addressed, hfound]
    rfl

/-- By induction on the records: each of them chooses an alternative, from what the ones before it have chosen. -/
theorem Field.selected_foldlM (hnodup : alternatives.numbers.Nodup) {start middle last : Option κ}
    {front records : List Bytes}
    (hfront : Alternative.Selected (alternatives.kinds join) start front middle)
    (haddressed : ∀ record ∈ records,
      (Field.choice name alternatives split join join_split split_join).addressed record = true)
    (h : records.foldlM (Delimited.mergeAlone?
      (Field.choice name alternatives split join join_split split_join).merge) middle = some last) :
    Alternative.Selected (alternatives.kinds join) start (front ++ records) last := by
  induction records generalizing front middle with
  | nil =>
    obtain rfl : middle = last := Option.some.inj h
    rwa [List.append_nil]
  | cons record records ih =>
    obtain ⟨hrecord, hrecords⟩ := List.forall_mem_cons.mp haddressed
    rw [List.foldlM_cons] at h
    obtain ⟨next, hnext, hothers⟩ := Option.bind_eq_some_iff.mp h
    obtain ⟨tag, behindTag, hread, hnone, -, rfl⟩ := Delimited.mergeAlone?_eq_some hnext
    obtain rfl : Reader.behindTag record = behindTag := congrArg Prod.snd hread
    have hfound : (Tag.read (.ofBytes record)).1 = some tag := congrArg Prod.fst hread
    rw [Field.addressed, hfound, Option.any_some] at hrecord
    have hmerged := alternatives.chooses_merge hrecord
      (eq_some_join_iff join_split split_join middle) (Reader.willing_behindTag record) hnone
    have hchooses := hmerged.or middle
    have hnumbers := alternatives.map_number_kinds join ▸ hnodup
    have hdistinct := alternatives.distinct_kinds (Function.LeftInverse.injective split_join)
    have hselected := hfront.snoc hdistinct hnumbers hfound hchooses
    rw [List.append_cons]
    exact ih hselected hrecords hothers

end

/-! ### A field among others -/

theorem Field.exists_tag_of_addressed {α : Type} {field : Field α} {record : Bytes}
    (h : field.addressed record = true) :
    ∃ tag, (Tag.read (.ofBytes record)).1 = some tag ∧ tag.number ∈ field.numbers := by
  rw [addressed] at h
  cases hfound : (Tag.read (.ofBytes record)).1 with
  | none =>
    rw [hfound] at h
    cases h
  | some tag =>
    rw [hfound, Option.any_some] at h
    exact ⟨tag, rfl, mem_numbers_of_accepts h⟩

theorem Field.not_addressed {α β : Type} {field : Field α} {other : Field β}
    (hapart : ∀ m ∈ field.numbers, ∀ n ∈ other.numbers, m ≠ n) {record : Bytes}
    (h : field.addressed record = true) : other.addressed record = false := by
  by_contra hnot
  have hother : other.addressed record = true := by simpa using hnot
  obtain ⟨tag, hfound, hnumber⟩ := exists_tag_of_addressed h
  obtain ⟨tag', hfound', hnumber'⟩ := exists_tag_of_addressed hother
  obtain rfl : tag = tag' := Option.some.inj (hfound.symm.trans hfound')
  exact hapart _ hnumber _ hnumber' rfl

theorem Field.filter_addressed {α β : Type} {field : Field α} {other : Field β}
    (hapart : ∀ m ∈ field.numbers, ∀ n ∈ other.numbers, m ≠ n) (records : List Bytes) :
    (records.filter fun record => !other.addressed record).filter field.addressed =
      records.filter field.addressed := by
  rw [List.filter_filter]
  apply List.filter_congr
  intro record _
  by_cases haddressed : field.addressed record = true
  · rw [not_addressed hapart haddressed, haddressed]
    rfl
  · simp [haddressed]

/-- The field is one of several, and `get` is its value. -/
inductive Fields.Has : {α β : Type} → Fields α → Field β → (α → β) → Prop where
  | first {β γ : Type} (field : Field β) (others : Fields γ) : Has (.cons field others) field Prod.fst
  | later {β γ δ : Type} (other : Field δ) {others : Fields γ} {field : Field β} {get : γ → β}
    (has : Has others field get) : Has (.cons other others) field (get ∘ Prod.snd)

namespace Fields.Has

variable {α β : Type} {fields : Fields α} {field : Field β} {get : α → β}

theorem sublist_numbers (h : Has fields field get) : field.numbers.Sublist fields.numbers := by
  induction h with
  | first field others => exact List.sublist_append_left _ _
  | later other _ ih => exact ih.trans (List.sublist_append_right _ _)

/-- Records act on one field by those that address it. -/
theorem foldlM (h : Has fields field get) (hnodup : fields.numbers.Nodup) {records : List Bytes}
    {values last : α} (hlast : records.foldlM (Delimited.mergeAlone? fields.merge) values = some last) :
    (records.filter field.addressed).foldlM (Delimited.mergeAlone? field.merge) (get values) =
      some (get last) := by
  induction h generalizing records with
  | first field others =>
    obtain ⟨value, values⟩ := values
    rw [foldlM_pair (Fields.mergeAlone?_cons field others)] at hlast
    obtain ⟨value', hvalue, hothers⟩ := Option.bind_eq_some_iff.mp hlast
    obtain ⟨values', _, rfl⟩ := Option.map_eq_some_iff.mp hothers
    exact hvalue
  | @later β γ δ other others field get has ih =>
    obtain ⟨value, values⟩ := values
    rw [foldlM_pair (Fields.mergeAlone?_cons other others)] at hlast
    obtain ⟨value', _, hothers⟩ := Option.bind_eq_some_iff.mp hlast
    obtain ⟨values', hvalues, rfl⟩ := Option.map_eq_some_iff.mp hothers
    rw [Fields.numbers, List.nodup_append] at hnodup
    obtain ⟨-, hnumbers, hapart⟩ := hnodup
    have hother : ∀ m ∈ field.numbers, ∀ n ∈ other.numbers, m ≠ n := fun m hm n hn =>
      (hapart n hn m (has.sublist_numbers.subset hm)).symm
    rw [← Field.filter_addressed hother]
    exact ih hnumbers hvalues

end Fields.Has

inductive Format.Has {μ β : Type} : Format μ → Field β → (μ → β) → Prop where
  | field {α : Type} {name : String} {fields : Fields α} {split : μ → α} {join : α → μ}
    {join_split : ∀ message, join (split message) = message}
    {split_join : ∀ values, split (join values) = values} {field : Field β} {get : α → β}
    (has : fields.Has field get) :
    Has (.record name fields split join join_split split_join) field (get ∘ split)

namespace Format

variable {μ β κ α : Type} {format : Format μ} {records : List Bytes} {message last : μ}

theorem Has.foldlM {field : Field β} {get : μ → β} (h : format.Has field get)
    (hformed : format.wellFormed = true)
    (hlast : records.foldlM (Delimited.mergeAlone? format.mergeRecord) message = some last) :
    (records.filter field.addressed).foldlM (Delimited.mergeAlone? field.merge) (get message) =
      some (get last) := by
  cases h with
  | @field α name fields split join join_split split_join _ get has =>
    rw [wellFormed, Bool.and_eq_true, decide_eq_true_eq] at hformed
    rw [foldlM_mergeRecord] at hlast
    obtain ⟨values, hvalues, rfl⟩ := Option.map_eq_some_iff.mp hlast
    rw [Function.comp_apply, Function.comp_apply, split_join]
    exact has.foldlM hformed.1 hvalues

theorem Has.nodup_numbers {field : Field β} {get : μ → β} (h : format.Has field get)
    (hformed : format.wellFormed = true) : field.numbers.Nodup := by
  cases h with
  | field has =>
    rw [wellFormed, Bool.and_eq_true, decide_eq_true_eq] at hformed
    exact has.sublist_numbers.nodup hformed.1

/-- A sequence of complete records that is merged acts on a choice by the records of its alternatives, which determine what is chosen. -/
theorem selected_merge {name : String} {alternatives : Alternatives α} {split : κ → α} {join : α → κ}
    {join_split : ∀ kind, join (split kind) = kind} {split_join : ∀ value, split (join value) = value}
    {get : μ → Option κ}
    (h : format.Has (.choice name alternatives split join join_split split_join) get)
    (hformed : format.wellFormed = true)
    (hcomplete : ∀ record ∈ records, format.CompleteRecord record)
    (hnone : (format.merge message (.ofBytes records.flatten)).error = none) (chosen : Option κ) :
    get (format.merge message (.ofBytes records.flatten)).value = chosen ↔
      Alternative.Selected (alternatives.kinds join) (get message)
        (records.filter (Alternative.anyAddressed (alternatives.kinds join))) chosen := by
  have hnodup : alternatives.numbers.Nodup := h.nodup_numbers hformed
  obtain ⟨last, hlast⟩ := foldlM_of_merge_flatten hcomplete hnone
  obtain ⟨-, hvalue⟩ := merge_flatten_of_foldlM hlast
  have hselected := Field.selected_foldlM hnodup .unchanged
    (fun record hrecord => (List.mem_filter.mp hrecord).2) (h.foldlM hformed hlast)
  rw [Field.addressed_choice, List.nil_append] at hselected
  rw [hvalue]
  constructor
  · rintro rfl
    exact hselected
  · have hnumbers := alternatives.map_number_kinds join ▸ hnodup
    exact hselected.unique (alternatives.distinct_kinds (Function.LeftInverse.injective split_join))
      hnumbers

end Format

end EngineConsole
