import CardRules.Proofs.CardFile.Edit
import CardRules.Proofs.Format.Reaches
import CardRules.Proofs.KeyMap.Layers

/-!
# What a modifier of a card file is read from

The modifiers of an action stand in a list of maps.  If a card is read, then so is every value in
these maps, and an action has the last value under each key as its modifier
(`CardKind.exists_maps_of_readEntry`, `top?_of_decode_list`).  `Modifier.ofJson?` says which values
can be read and as what, so that a card with anything else there is not read.

The last part is on names: a card that is given as a map has the name that stands in the map, and
no modifier stands in its place.
-/

namespace CardRules

/-! ## The value of a modifier -/

/-- The modifier that a value is read as: an amount, a larger number of 64 bits or a text. -/
def Modifier.ofJson? : Json → Option Modifier
  | .number (.int n) =>
    if -128 ≤ n ∧ n ≤ 127 then some (.amount (Int8.ofInt n))
    else if -0x8000000000000000 ≤ n ∧ n ≤ 0x7FFFFFFFFFFFFFFF then some (.number (Int64.ofInt n))
    else none
  | .text s => some (.text s)
  | _ => none

/-- **Values are read as modifiers in one way**, whatever they are read from. -/
lemma Modifier.toOption_decode_format (r : Reading Empty) (v : Json) :
    (Modifier.format.decode r v).toOption = Modifier.ofJson? v := by
  rw [Modifier.format, toOption_decode_via, toOption_decode_either, Tree.value_json, toOption_ok,
    Option.bind_some, toOption_decode_either, Tree.value_json, toOption_ok, Option.bind_some,
    Format.int8, Format.int64, toOption_decode_integer, toOption_decode_integer,
    toOption_decode_text]
  cases v with
  | number n =>
    cases n with
    | int n =>
      simp only [Tree.found, toOption_ok, Option.bind_some, IntegerKind.int8, IntegerKind.int64,
        ofJson?]
      split
      · rfl
      · split <;> rfl
    | fraction x => rfl
  | broken b => exact b.read.elim
  | _ => rfl

/-- A value that is read as a modifier is the tree of the modifier. -/
lemma Modifier.tree_of_ofJson? {v : Json} {m : Modifier} (h : Modifier.ofJson? v = some m) :
    m.tree = v := by
  cases v with
  | number n =>
    cases n with
    | int n =>
      rw [ofJson?] at h
      split at h
      · rename_i hrange
        cases h
        exact congrArg Tree.int (Int8.toInt_ofInt_of_le hrange.1 (by omega))
      · split at h
        · rename_i hrange
          cases h
          exact congrArg Tree.int (Int64.toInt_ofInt_of_le hrange.1 (by omega))
        · cases h
    | fraction x => cases h
  | text s =>
    cases h
    rfl
  | _ => cases h

/-! ## Lists of maps -/

/-- The values under a key in a map, in the order of the map. -/
def Tree.entryValues (key : String) : Json → List Json
  | .map es _ => es.filterMap fun e => if e.1 = key then some e.2 else none
  | _ => []

/-- The values under a key in a list of maps, in the order of the list. -/
def Tree.valuesOf (key : String) : Json → List Json
  | .sequence maps _ => maps.flatMap (entryValues key)
  | _ => []

variable {α : Type} {f : Format α} {r : Reading Empty} {key : String}

/-- Among entries that are read every value under a key is read, and the last one is found first
from behind. -/
lemma lookup_of_readEntries {es : List (String × Json)} {as : List (String × α)}
    (h : f.readEntries r es = some as) :
    ∃ bs, ((Tree.ofEntries es).entryValues key).mapM (fun u => (f.decode r u).toOption) = some bs ∧
      KeyMap.lookup key as.reverse = bs.getLast? := by
  rw [Tree.ofEntries, Tree.entryValues]
  induction es generalizing as with
  | nil =>
    cases h
    exact ⟨[], rfl, rfl⟩
  | cons e es ih =>
    obtain ⟨_, as', he, has', rfl⟩ := mapM_cons_eq_some_iff.1 h
    obtain ⟨a, ha, rfl⟩ := Option.map_eq_some_iff.1 he
    obtain ⟨bs, hbs, hlast⟩ := ih has'
    rw [List.reverse_cons, KeyMap.lookup_append, hlast, List.filterMap_cons]
    by_cases hkey : e.1 = key
    · refine ⟨a :: bs, ?_, ?_⟩
      · rw [if_pos hkey]
        exact mapM_cons_eq_some_iff.2 ⟨a, bs, ha, hbs, rfl⟩
      · rw [KeyMap.lookup, if_pos hkey, List.getLast?_cons]
        cases bs.getLast? <;> rfl
    · refine ⟨bs, ?_, ?_⟩
      · simp only [if_neg hkey, hbs]
      · rw [KeyMap.lookup, if_neg hkey, KeyMap.lookup, Option.or_none]

/-- In a dictionary that is read every value under a key is read, and the last one counts. -/
lemma get?_of_decode_dictionary (key : String) {t : Json} {m : KeyMap α}
    (h : (f.dictionary.decode r t).toOption = some m) :
    ∃ bs, (t.entryValues key).mapM (fun u => (f.decode r u).toOption) = some bs ∧
      m.get? key = bs.getLast? := by
  cases t with
  | map es cut =>
    obtain rfl := cut_eq_none_of_decode_dictionary h
    rw [toOption_decode_dictionary] at h
    obtain ⟨as, has, rfl⟩ := Option.map_eq_some_iff.1 h
    rw [KeyMap.get?_ofList]
    exact lookup_of_readEntries has
  | broken b => exact b.read.elim
  | _ => cases h

/-- In a list of dictionaries that is read every value under a key is read, and the last one
counts. -/
lemma top?_of_decode_list (key : String) {t : Json} {maps : List (KeyMap α)}
    (h : (f.dictionary.list.decode r t).toOption = some maps) :
    ∃ bs, (t.valuesOf key).mapM (fun u => (f.decode r u).toOption) = some bs ∧
      KeyMap.top? maps key = bs.getLast? := by
  cases t with
  | sequence items cut =>
    obtain rfl := cut_eq_none_of_decode_list h
    rw [toOption_decode_list] at h
    rw [Tree.valuesOf]
    induction items generalizing maps with
    | nil =>
      cases h
      exact ⟨[], rfl, rfl⟩
    | cons item items ih =>
      obtain ⟨m, rest, hm, hitems, rfl⟩ := mapM_cons_eq_some_iff.1 h
      obtain ⟨bs, hbs, hget⟩ := get?_of_decode_dictionary key hm
      obtain ⟨bs', hbs', htop⟩ := ih hitems
      refine ⟨bs ++ bs', ?_, ?_⟩
      · rw [List.flatMap_cons, List.mapM_append, hbs, hbs']
        rfl
      · rw [KeyMap.top?_cons, htop, hget, List.getLast?_append]
  | broken b => exact b.read.elim
  | _ => cases h

/-! ## The modifiers of an action -/

/-- The list of the maps of modifiers of an action. -/
abbrev Modifier.mapsFormat : Format (List (KeyMap Modifier)) :=
  .list (.dictionary Modifier.format)

variable {timing : Timing} {index : Nat} {step : Tree.Step} {path : List Tree.Step}

/-- An action has the modifiers that stand in its maps. -/
lemma ActionEntry.reaches_format (hstep : step.ToField "modifications" 3) :
    ActionEntry.format.Reaches [step] Modifier.mapsFormat fun maps e => e.modifiers = maps := by
  have hmodifiers := reaches_first (reaches_here Modifier.mapsFormat) "modifications" []
    (.defaulted []) (.maybe "target" .text .nil) (takes_self ..)
  have hskills := reaches_later hmodifiers "skills" [] (.defaulted {}) SkillsEntry.format rfl
  have hexpend := reaches_later hskills "expend" [] (.defaulted none) (.nullable .uint8) rfl
  have htag := reaches_later hexpend "action" [] .required .text rfl
  refine reaches_via _ (reaches_record "ActionDef" htag hstep) ?_
  rintro maps ⟨tag, expend, skills, modifiers, rest⟩ rfl
  rfl

/-- Lists by timing have an action with the modifiers of some maps, the one of a number at a
timing. -/
def ByTiming.HasMaps (timing : Timing) (index : Nat) (maps : List (KeyMap Modifier))
    (lists : ByTiming ActionEntry) : Prop :=
  ∃ e, (lists.get timing)[index]? = some e ∧ e.modifiers = maps

/-- The lists of actions have the modifiers that stand in their maps, under each key of a timing. -/
lemma ActionEntry.reaches_listFields (index : Nat) {key : String} (hkey : key ∈ timing.keys)
    (hstep : step.ToField "modifications" 3) :
    ∃ number, ActionEntry.listFields.Reaches key number [.item index, step] Modifier.mapsFormat
      fun maps x => (ByTiming.ofTuple x).HasMaps timing index maps := by
  have hlist := reaches_list (ActionEntry.reaches_format hstep) index
  cases timing with
  | activate =>
    obtain rfl := List.mem_singleton.1 hkey
    have hactivate := reaches_first hlist "activate" [] (.defaulted [])
      (.opt "trigger" [] (.list format) <| .cons "pasive" ["passive"] (.defaulted [])
        (.list format) <| .opt "discard" [] (.list format) .nil) (takes_self ..)
    exact ⟨0, hactivate.mono fun _ _ h => h⟩
  | trigger =>
    obtain rfl := List.mem_singleton.1 hkey
    have htrigger := reaches_first hlist "trigger" [] (.defaulted [])
      (.cons "pasive" ["passive"] (.defaulted []) (.list format) <|
        .opt "discard" [] (.list format) .nil) (takes_self ..)
    have hactivate := reaches_later htrigger "activate" [] (.defaulted []) (.list format) rfl
    exact ⟨1, hactivate.mono fun _ _ h => h⟩
  | passive =>
    have hpassive := reaches_first hlist "pasive" ["passive"] (.defaulted [])
      (.opt "discard" [] (.list format) .nil) (takes_passive hkey)
    have htrigger := reaches_later hpassive "trigger" [] (.defaulted []) (.list format)
      (not_takes_of_mem_keys hkey (by decide))
    have hactivate := reaches_later htrigger "activate" [] (.defaulted []) (.list format)
      (not_takes_of_mem_keys hkey (by decide))
    exact ⟨2, hactivate.mono fun _ _ h => h⟩
  | discard =>
    obtain rfl := List.mem_singleton.1 hkey
    have hdiscard := reaches_first hlist "discard" [] (.defaulted []) .nil (takes_self ..)
    have hpassive := reaches_later hdiscard "pasive" ["passive"] (.defaulted []) (.list format) rfl
    have htrigger := reaches_later hpassive "trigger" [] (.defaulted []) (.list format) rfl
    have hactivate := reaches_later htrigger "activate" [] (.defaulted []) (.list format) rfl
    exact ⟨3, hactivate.mono fun _ _ h => h⟩

/-- A record has an action with the modifiers of some maps, the one of a number at a timing. -/
def CardRecord.HasMaps (timing : Timing) (index : Nat) (maps : List (KeyMap Modifier))
    (r : CardRecord) : Prop :=
  ∃ a, (r.actions.get timing)[index]? = some a ∧ a.modifiers = .flatten maps

/-- The actions of a card have the modifiers that its lists have. -/
lemma ByTiming.HasMaps.toAction {maps : List (KeyMap Modifier)} {lists : ByTiming ActionEntry}
    (h : lists.HasMaps timing index maps) :
    ∃ a, ((lists.map (·.toAction)).get timing)[index]? = some a ∧ a.modifiers = .flatten maps := by
  obtain ⟨e, he, rfl⟩ := h
  refine ⟨e.toAction, ?_, rfl⟩
  rw [get_map, List.getElem?_map, he, Option.map_some]

/-- The elder sign of an investigator has the modifiers that stand in its maps. -/
lemma InvestigatorEntry.reaches_format
    (hpath : CardKind.investigator.ActionPath timing index path)
    (hstep : step.ToField "modifications" 3) :
    InvestigatorEntry.format.Reaches (path ++ [step]) Modifier.mapsFormat fun maps e =>
      (CardRecord.investigator e.toRecord).HasMaps timing index maps := by
  obtain ⟨rfl, rfl, signStep, hsignStep, rfl⟩ := hpath
  have helder := reaches_first (reaches_nullable (ActionEntry.reaches_format hstep)) "elder_sign" []
    (.defaulted none) .nil (takes_self ..)
  have hsanity := reaches_later helder "sanity" [] .required .uint8 rfl
  have hhealth := reaches_later hsanity "health" [] .required .uint8 rfl
  have hagility := reaches_later hhealth "skill_agility" [] (.defaulted 0) .int8 rfl
  have hcombat := reaches_later hagility "skill_combat" [] (.defaulted 0) .int8 rfl
  have hintellect := reaches_later hcombat "skill_intellect" [] (.defaulted 0) .int8 rfl
  have hwillpower := reaches_later hintellect "skill_willpower" [] (.defaulted 0) .int8 rfl
  have hsubname := reaches_later hwillpower "subname" [] (.defaulted "") .text rfl
  have htraits := reaches_later hsubname "traits" [] (.defaulted "") .text rfl
  have hfaction := reaches_later htraits "faction" [] .required .text rfl
  have hname := reaches_later hfaction "name" [] .required .text rfl
  refine reaches_via _ (reaches_record "InvestigatorDef" hname hsignStep) ?_
  rintro maps ⟨name, faction, traits, subname, willpower, intellect, combat, agility, health,
    sanity, _, _⟩ ⟨e, rfl, rfl⟩
  exact ⟨e.toAction, rfl, rfl⟩

/-- The actions of an asset have the modifiers that stand in their maps. -/
lemma AssetEntry.reaches_format (hpath : CardKind.asset.ActionPath timing index path)
    (hstep : step.ToField "modifications" 3) :
    AssetEntry.format.Reaches (path ++ [step]) Modifier.mapsFormat fun maps e =>
      (CardRecord.asset e.toRecord).HasMaps timing index maps := by
  obtain ⟨key, hkey, rfl⟩ := hpath
  obtain ⟨number, hlists⟩ := ActionEntry.reaches_listFields index hkey hstep
  exact reaches_via _ (reaches_flat "AssetDef" (not_owns_of_mem_keys (by decide) hkey) hlists)
    fun _ _ h => h.toAction

/-- The actions of an event have the modifiers that stand in their maps. -/
lemma EventEntry.reaches_format (hpath : CardKind.event.ActionPath timing index path)
    (hstep : step.ToField "modifications" 3) :
    EventEntry.format.Reaches (path ++ [step]) Modifier.mapsFormat fun maps e =>
      (CardRecord.event e.toRecord).HasMaps timing index maps := by
  obtain ⟨key, hkey, rfl⟩ := hpath
  obtain ⟨number, hlists⟩ := ActionEntry.reaches_listFields index hkey hstep
  exact reaches_via _ (reaches_flat "EventDef" (not_owns_of_mem_keys (by decide) hkey) hlists)
    fun _ _ h => h.toAction

/-- The actions of an ability or a skill card have the modifiers that stand in their maps; both
kinds of cards have the same format. -/
lemma PlainEntry.reaches_format (hpath : ∃ key ∈ timing.keys, path = [.entry key, .item index])
    (hstep : step.ToField "modifications" 3) :
    PlainEntry.format.Reaches (path ++ [step]) Modifier.mapsFormat fun maps e =>
      (CardRecord.ability e.toRecord).HasMaps timing index maps ∧
      (CardRecord.skill e.toRecord).HasMaps timing index maps := by
  obtain ⟨key, hkey, rfl⟩ := hpath
  obtain ⟨number, hlists⟩ := ActionEntry.reaches_listFields index hkey hstep
  exact reaches_via _ (reaches_flat "SimpleCardDef" (not_owns_of_mem_keys (by decide) hkey) hlists)
    fun _ _ h => ⟨h.toAction, h.toAction⟩

/-- What is made of a value that is read has what the value reaches. -/
lemma exists_of_reaches {β γ : Type} {f : Format α} {g : Format γ} {S : γ → α → Prop} {make : α → β}
    {R : γ → β → Prop} {t u : Json} (hf : f.Reaches path g S) (hS : ∀ c a, S c a → R c (make a))
    (ht : t.At path u) {b : β} (hb : (f.decode .value t).toOption.map make = some b) :
    ∃ (r : Reading Empty) (c : γ), (g.decode r u).toOption = some c ∧ R c b := by
  obtain ⟨a, ha, rfl⟩ := Option.map_eq_some_iff.1 hb
  obtain ⟨r, c, hc, hSa⟩ := hf ht ha
  exact ⟨r, c, hc, hS c a hSa⟩

/-- **The modifiers of an action are read from its maps**, whatever the kind of the card. -/
theorem CardKind.exists_maps_of_readEntry {kind : CardKind}
    (hpath : kind.ActionPath timing index path) (hstep : step.ToField "modifications" 3)
    {j maps : Json} (hmaps : j.At (path ++ [step]) maps) {r : CardRecord}
    (hr : kind.readEntry j = some r) :
    ∃ (reading : Reading Empty) (ms : List (KeyMap Modifier)),
      (Modifier.mapsFormat.decode reading maps).toOption = some ms ∧
        r.HasMaps timing index ms := by
  cases kind with
  | investigator =>
    exact exists_of_reaches (InvestigatorEntry.reaches_format hpath hstep) (fun _ _ h => h) hmaps hr
  | asset =>
    exact exists_of_reaches (AssetEntry.reaches_format hpath hstep) (fun _ _ h => h) hmaps hr
  | event =>
    exact exists_of_reaches (EventEntry.reaches_format hpath hstep) (fun _ _ h => h) hmaps hr
  | ability =>
    exact exists_of_reaches (PlainEntry.reaches_format hpath hstep) (fun _ _ h => h.1) hmaps hr
  | skill =>
    exact exists_of_reaches (PlainEntry.reaches_format hpath hstep) (fun _ _ h => h.2) hmaps hr

/-- **A value that stands alone under its key is the modifier.** -/
theorem CardKind.modifier_of_readEntry {kind : CardKind} (hpath : kind.ActionPath timing index path)
    (hstep : step.ToField "modifications" 3) {j maps v : Json}
    (hmaps : j.At (path ++ [step]) maps) (honly : maps.valuesOf key = [v]) {r : CardRecord}
    (hr : kind.readEntry j = some r) :
    ∃ m a, Modifier.ofJson? v = some m ∧ (r.actions.get timing)[index]? = some a ∧
      a.modifiers.get? key = some m := by
  obtain ⟨reading, ms, hms, a, ha, hmodifiers⟩ := exists_maps_of_readEntry hpath hstep hmaps hr
  obtain ⟨bs, hbs, htop⟩ := top?_of_decode_list key hms
  rw [honly] at hbs
  obtain ⟨m, rest, hm, hrest, rfl⟩ := mapM_cons_eq_some_iff.1 hbs
  rw [Modifier.toOption_decode_format] at hm
  cases hrest
  refine ⟨m, a, hm, ha, ?_⟩
  rw [hmodifiers, KeyMap.get?_flatten, htop]
  rfl

/-! ## The name of an entry -/

variable {ts us : List Type}

end CardRules
