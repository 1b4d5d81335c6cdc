import EngineConsole.Proofs.Message.Overflow

/-!
# Places in a message

What a patch does to a message is told place by place. A place is a path of field names from the message down through the messages inside it, to a scalar, a text, a list, a choice or a message. A patch without elements in its lists cannot fail for want of room, and what it does at a place depends only on the presence there.
-/

namespace EngineConsole

/-- What can be at a place, with respect to being left out. -/
inductive Presence (α : Type) where
  /-- A value that may be absent and is written whenever it is there. -/
  | explicit
  /-- A value that is not written if it counts as zero. A new message has `zero` there. -/
  | implicit (isZero : α → Bool) (zero : α)
  | list (empty : α)
  /-- A message that may be absent. It has places of its own. -/
  | message
  | choice

namespace Presence

variable {α : Type}

def start : Presence α → Option α
  | .implicit _ zero => some zero
  | .list empty => some empty
  | _ => none

def isImplicit : Presence α → Bool
  | .implicit _ _ => true
  | _ => false

/-- What a patch without elements in its lists makes of a value. What it does not have stays as it is. A value of explicit presence is taken over, and so is one of implicit presence unless it counts as zero; then the old value stays, and so does a list. -/
def Patched (presence : Presence α) (base patch result : Option α) : Prop :=
  match patch, presence with
  | none, _ => result = base
  | some value, .explicit => result = some value
  | some value, .implicit isZero zero =>
    result = if isZero value then base.or (some zero) else some value
  | some _, .list empty => result = base.or (some empty)
  | some _, .message | some _, .choice => result.isSome = true

/-- Two values are the same. Messages need only be both there, as they have places of their own. -/
def Agree (presence : Presence α) (first second : Option α) : Prop :=
  match presence with
  | .message => first.isSome = second.isSome
  | _ => first = second

theorem patched_none {presence : Presence α} {base : Option α} : presence.Patched base none base := by
  cases presence with
  | _ => rfl

theorem Patched.of_start {presence : Presence α} {patch result : Option α}
    (hpatch : patch.isSome = true) (h : presence.Patched presence.start patch result) :
    presence.Patched none patch result := by
  obtain ⟨value, rfl⟩ := Option.isSome_iff_exists.mp hpatch
  cases presence with
  | _ => exact h

end Presence

/-- A place in messages of type `μ`, with the way to look it up. Nothing is found below a message that is absent. -/
structure Place (μ : Type) where
  path : List String
  Value : Type
  presence : Presence Value
  get : μ → Option Value

namespace Place

variable {μ ν : Type}

def comap (f : ν → μ) (place : Place μ) : Place ν :=
  ⟨place.path, place.Value, place.presence, fun whole => place.get (f whole)⟩

def inside (name : String) (place : Place μ) : Place (Option μ) :=
  ⟨name :: place.path, place.Value, place.presence, fun message => message.bind place.get⟩

/-- A patch without elements in its lists does at the place what the presence there says. -/
def Patched (place : Place μ) (base patch result : μ) : Prop :=
  place.presence.Patched (place.get base) (place.get patch) (place.get result)

/-- Two messages have the same at the place. -/
def Agree (place : Place μ) (first second : μ) : Prop :=
  place.presence.Agree (place.get first) (place.get second)

end Place

/-! ### The places of a format -/

def Leaf.place {α : Type} (name : String) : Leaf α → Place α
  | .scalar kind => ⟨[name], _, .implicit kind.isZero kind.default, some⟩
  | .optional _ => ⟨[name], _, .explicit, id⟩
  | .text _ => ⟨[name], _, .implicit String.isEmpty "", some⟩
  | .optionalText _ => ⟨[name], _, .explicit, id⟩
  | .floats _ => ⟨[name], _, .list [], some⟩

mutual

def Format.places {μ : Type} : Format μ → List (Place μ)
  | .record _ fields split _ _ _ => fields.places.map (Place.comap split)

def Fields.places {α : Type} : Fields α → List (Place α)
  | .nil => []
  | .cons field others =>
    field.places.map (Place.comap Prod.fst) ++ others.places.map (Place.comap Prod.snd)

def Field.places {α : Type} : Field α → List (Place α)
  | .leaf _ name kind => [kind.place name]
  | .message _ name format => ⟨[name], _, .message, id⟩ :: format.places.map (Place.inside name)
  | .messages _ name _ _ => [⟨[name], _, .list [], some⟩]
  | .choice name .. => [⟨[name], _, .choice, id⟩]

end

/-! ### Patches without elements -/

def Leaf.barren {α : Type} : Leaf α → α → Bool
  | .floats _, values => values.isEmpty
  | _, _ => true

mutual

def Format.barren {μ : Type} : Format μ → μ → Bool
  | .record _ fields split _ _ _, message => fields.barren (split message)

def Fields.barren {α : Type} : Fields α → α → Bool
  | .nil, _ => true
  | .cons field others, (value, values) => field.barren value && others.barren values

def Field.barren {α : Type} : Field α → α → Bool
  | .leaf _ _ kind, value => kind.barren value
  | .message _ _ format, value => value.all format.barren
  | .messages .., values => values.isEmpty
  | .choice _ alternatives split _ _ _, value => value.all fun kind => alternatives.barren (split kind)

def Alternatives.barren {α : Type} : Alternatives α → α → Bool
  | .signal _ _ _, .inl () => true
  | .signal _ _ others, .inr value => others.barren value
  | .scalar _ _ _ _, .inl _ => true
  | .scalar _ _ _ others, .inr value => others.barren value
  | .message _ _ format _, .inl message => format.barren message
  | .message _ _ _ others, .inr value => others.barren value

end

theorem Leaf.fits_of_barren {α : Type} {kind : Leaf α} {base patch : α}
    (hbase : kind.within base = true) (hbarren : kind.barren patch = true) :
    kind.fits base patch = true := by
  cases kind with
  | floats capacity =>
    rw [barren, List.isEmpty_iff] at hbarren
    rw [hbarren]
    exact hbase
  | _ => rfl

mutual

theorem Format.fits_of_barren {μ : Type} : (format : Format μ) → (base patch : μ) →
    format.within base = true → format.barren patch = true → format.fits base patch = true
  | .record _ fields split _ _ _, base, patch, hbase, hbarren =>
    fields.fits_of_barren (split base) (split patch) hbase hbarren

theorem Fields.fits_of_barren {α : Type} : (fields : Fields α) → (base patch : α) →
    fields.within base = true → fields.barren patch = true → fields.fits base patch = true
  | .nil, _, _, _, _ => rfl
  | .cons field others, (base, bases), (patch, patches), hbase, hbarren => by
    rw [Fields.within, Bool.and_eq_true] at hbase
    rw [Fields.barren, Bool.and_eq_true] at hbarren
    rw [Fields.fits, field.fits_of_barren base patch hbase.1 hbarren.1,
      others.fits_of_barren bases patches hbase.2 hbarren.2, Bool.and_self]

theorem Field.fits_of_barren {α : Type} : (field : Field α) → (base patch : α) →
    field.within base = true → field.barren patch = true → field.fits base patch = true
  | .leaf _ _ kind, _, _, hbase, hbarren => kind.fits_of_barren hbase hbarren
  | .message _ _ _, _, none, _, _ => rfl
  | .message _ _ format, base, some patch, hbase, hbarren =>
    format.fits_of_barren (base.getD format.default) patch (Format.within_getD_default hbase) hbarren
  | .messages _ _ _ _, _, patch, hbase, hbarren => by
    rw [Field.barren, List.isEmpty_iff] at hbarren
    rw [Field.within, Bool.and_eq_true] at hbase
    rw [hbarren]
    exact hbase.1
  | .choice _ _ _ _ _ _, _, none, _, _ => rfl
  | .choice _ alternatives split _ _ _, base, some patch, hbase, hbarren => by
    have hchosen : (base.map split).all alternatives.within = true := by
      rw [Option.all_map]
      exact hbase
    exact alternatives.fits_of_barren (base.map split) (split patch) hchosen hbarren

theorem Alternatives.fits_of_barren {α : Type} : (alternatives : Alternatives α) →
    (chosen : Option α) → (patch : α) → chosen.all alternatives.within = true →
    alternatives.barren patch = true → alternatives.fits chosen patch = true
  | .signal _ _ _, _, .inl (), _, _ => rfl
  | .signal _ _ others, _, .inr patch, hchosen, hbarren =>
    others.fits_of_barren _ patch (all_bind_getRight? hchosen fun _ => rfl) hbarren
  | .scalar _ _ _ _, _, .inl _, _, _ => rfl
  | .scalar _ _ _ others, _, .inr patch, hchosen, hbarren =>
    others.fits_of_barren _ patch (all_bind_getRight? hchosen fun _ => rfl) hbarren
  | .message _ _ format _, _, .inl patch, hchosen, hbarren =>
    format.fits_of_barren _ patch (Format.within_getD_getLeft? hchosen fun _ => rfl) hbarren
  | .message _ _ _ others, _, .inr patch, hchosen, hbarren =>
    others.fits_of_barren _ patch (all_bind_getRight? hchosen fun _ => rfl) hbarren

end

/-! ### What a patch does at a place -/

namespace Place

variable {μ : Type} {place : Place μ}

theorem patched_of_absent {base patch : μ} (h : place.get patch = none) :
    place.Patched base patch base := by
  rw [Patched, h]
  exact Presence.patched_none

/-- In a new message nothing is at the place, or the value with which such a place starts; the place is then there in every message. -/
def Starts (place : Place μ) (fresh : μ) : Prop :=
  place.get fresh = none ∨
    place.get fresh = place.presence.start ∧ ∀ message, (place.get message).isSome = true

/-- A patch on a message that is absent does at a place what it does there on a new message. -/
theorem Patched.inside_none {fresh patch result : μ} (name : String) (hstarts : place.Starts fresh)
    (h : place.Patched fresh patch result) :
    (place.inside name).Patched none (some patch) (some result) := by
  rw [Patched] at h
  rcases hstarts with hnone | ⟨hstart, hpresent⟩
  · rw [hnone] at h
    exact h
  · rw [hstart] at h
    exact h.of_start (hpresent patch)

end Place

theorem Leaf.starts_place {α : Type} (name : String) (kind : Leaf α) :
    (kind.place name).Starts kind.default := by
  cases kind with
  | scalar kind => exact .inr ⟨rfl, fun _ => rfl⟩
  | optional kind => exact .inl rfl
  | text capacity => exact .inr ⟨rfl, fun _ => rfl⟩
  | optionalText capacity => exact .inl rfl
  | floats capacity => exact .inr ⟨rfl, fun _ => rfl⟩

theorem Leaf.patched_overlay {α : Type} (name : String) {kind : Leaf α} {base patch : α}
    (hbarren : kind.barren patch = true) :
    (kind.place name).Patched base patch (kind.overlay base patch) := by
  cases kind with
  | scalar kind => exact (apply_ite some _ _ _)
  | optional kind =>
    cases patch with
    | none => exact Place.patched_of_absent rfl
    | some value => rfl
  | text capacity => exact (apply_ite some _ _ _)
  | optionalText capacity =>
    cases patch with
    | none => exact Place.patched_of_absent rfl
    | some text => rfl
  | floats capacity =>
    rw [barren, List.isEmpty_iff] at hbarren
    rw [hbarren, overlay, List.append_nil]
    rfl

theorem Field.starts_of_mem_places {α : Type} (field : Field α) {place : Place α}
    (h : place ∈ field.places) : place.Starts field.default := by
  cases field with
  | leaf number name kind =>
    rw [List.mem_singleton.mp h]
    exact kind.starts_place name
  | message number name format =>
    -- nothing is there, so nothing is inside either
    rw [places, List.mem_cons, List.mem_map] at h
    obtain rfl | ⟨place, -, rfl⟩ := h
    · exact .inl rfl
    · exact .inl rfl
  | messages number name capacity format =>
    rw [List.mem_singleton.mp h]
    exact .inr ⟨rfl, fun _ => rfl⟩
  | choice name alternatives split join join_split split_join =>
    rw [List.mem_singleton.mp h]
    exact .inl rfl

theorem Fields.starts_of_mem_places {α : Type} : (fields : Fields α) → {place : Place α} →
    place ∈ fields.places → place.Starts fields.default
  | .nil, _, h => by contradiction
  | .cons field others, _, h => by
    rw [places, List.mem_append, List.mem_map, List.mem_map] at h
    obtain ⟨place, hplace, rfl⟩ | ⟨place, hplace, rfl⟩ := h
    · exact (field.starts_of_mem_places hplace).imp_right fun hstart =>
        ⟨hstart.1, fun values => hstart.2 values.1⟩
    · exact (others.starts_of_mem_places hplace).imp_right fun hstart =>
        ⟨hstart.1, fun values => hstart.2 values.2⟩

theorem Format.starts_of_mem_places {μ : Type} (format : Format μ) {place : Place μ}
    (h : place ∈ format.places) : place.Starts format.default := by
  obtain ⟨name, fields, split, join, join_split, split_join⟩ := format
  rw [places, List.mem_map] at h
  obtain ⟨place, hplace, rfl⟩ := h
  have hstart := fields.starts_of_mem_places hplace
  rw [← split_join fields.default] at hstart
  exact hstart.imp_right fun hstart => ⟨hstart.1, fun message => hstart.2 (split message)⟩

mutual

/-- A patch without elements does at every place what the presence there says. -/
theorem Format.patched_overlay {μ : Type} : (format : Format μ) → (base patch : μ) →
    format.barren patch = true →
    ∀ place ∈ format.places, place.Patched base patch (format.overlay base patch)
  | .record _ fields split join _ split_join, base, patch, hbarren, place, hplace => by
    rw [Format.places, List.mem_map] at hplace
    obtain ⟨place, hplace, rfl⟩ := hplace
    have hpatched := fields.patched_overlay (split base) (split patch) hbarren place hplace
    rw [← split_join (fields.overlay (split base) (split patch))] at hpatched
    exact hpatched

theorem Fields.patched_overlay {α : Type} : (fields : Fields α) → (base patch : α) →
    fields.barren patch = true →
    ∀ place ∈ fields.places, place.Patched base patch (fields.overlay base patch)
  | .nil, _, _, _, _, hplace => by contradiction
  | .cons field others, (base, bases), (patch, patches), hbarren, place, hplace => by
    rw [Fields.barren, Bool.and_eq_true] at hbarren
    rw [Fields.places, List.mem_append, List.mem_map, List.mem_map] at hplace
    obtain ⟨place, hplace, rfl⟩ | ⟨place, hplace, rfl⟩ := hplace
    · exact field.patched_overlay base patch hbarren.1 place hplace
    · exact others.patched_overlay bases patches hbarren.2 place hplace

theorem Field.patched_overlay {α : Type} : (field : Field α) → (base patch : α) →
    field.barren patch = true →
    ∀ place ∈ field.places, place.Patched base patch (field.overlay base patch)
  | .leaf _ name kind, base, patch, hbarren, place, hplace => by
    rw [List.mem_singleton.mp hplace]
    exact kind.patched_overlay name hbarren
  | .message _ name format, base, none, _, place, hplace => by
    rw [Field.places, List.mem_cons, List.mem_map] at hplace
    obtain rfl | ⟨place, -, rfl⟩ := hplace
    · exact Place.patched_of_absent rfl
    · exact Place.patched_of_absent rfl
  | .message _ name format, base, some patch, hbarren, place, hplace => by
    rw [Field.places, List.mem_cons, List.mem_map] at hplace
    obtain rfl | ⟨place, hplace, rfl⟩ := hplace
    · exact rfl
    · have hpatched := format.patched_overlay (base.getD format.default) patch hbarren place hplace
      cases base with
      | none => exact hpatched.inside_none name (format.starts_of_mem_places hplace)
      | some base => exact hpatched
  | .messages _ name _ _, base, patch, hbarren, place, hplace => by
    rw [Field.barren, List.isEmpty_iff] at hbarren
    rw [List.mem_singleton.mp hplace, hbarren, Field.overlay, List.map_nil, List.append_nil]
    rfl
  | .choice name _ _ _ _ _, base, patch, _, place, hplace => by
    rw [List.mem_singleton.mp hplace]
    cases patch with
    | none => exact Place.patched_of_absent rfl
    | some kind => exact rfl

end

/-! ### Places tell messages apart -/

mutual

/-- Messages that have the same at every place are the same. -/
theorem Format.eq_of_agree {μ : Type} : (format : Format μ) → (first second : μ) →
    (∀ place ∈ format.places, place.Agree first second) → first = second
  | .record _ fields split join join_split _, first, second, h => by
    have hsplit := fields.eq_of_agree (split first) (split second) fun place hplace =>
      h _ (List.mem_map_of_mem hplace)
    rw [← join_split first, hsplit, join_split]

theorem Fields.eq_of_agree {α : Type} : (fields : Fields α) → (first second : α) →
    (∀ place ∈ fields.places, place.Agree first second) → first = second
  | .nil, _, _, _ => rfl
  | .cons field others, (first, firsts), (second, seconds), h => by
    have hfield := field.eq_of_agree first second fun place hplace =>
      h _ (List.mem_append_left _ (List.mem_map_of_mem hplace))
    have hothers := others.eq_of_agree firsts seconds fun place hplace =>
      h _ (List.mem_append_right _ (List.mem_map_of_mem hplace))
    rw [hfield, hothers]

theorem Field.eq_of_agree {α : Type} : (field : Field α) → (first second : α) →
    (∀ place ∈ field.places, place.Agree first second) → first = second
  | .leaf _ name kind, first, second, h => by
    have hleaf := h (kind.place name) (List.mem_singleton_self _)
    cases kind with
    | optional kind => exact hleaf
    | optionalText capacity => exact hleaf
    | _ => exact Option.some_inj.mp hleaf
  | .message _ name format, first, second, h => by
    have hpresence : first.isSome = second.isSome := h _ List.mem_cons_self
    cases first with
    | none => cases second with
      | none => rfl
      | some second => contradiction
    | some first => cases second with
      | none => contradiction
      | some second =>
        have hmessage := format.eq_of_agree first second fun place hplace =>
          h _ (List.mem_cons_of_mem _ (List.mem_map_of_mem hplace))
        rw [hmessage]
  | .messages _ _ _ _, _, _, h => Option.some_inj.mp (h _ (List.mem_singleton_self _))
  | .choice _ _ _ _ _ _, _, _, h => h _ (List.mem_singleton_self _)

end

end EngineConsole
