import ElasticPool.Settings.Document
import ElasticPool.Proofs.Binary64.Decoding
/-!
A document holds settings if it spells out members with distinct known names and values of the
right types, as an object or as an array in the order of the fields, and the fields that they
give keep the rules.  So the order of the members does not matter, both forms agree, and what is
refused is refused for the rule that is broken.  Settings that are written out are read back as
they are, which makes the written form of any document a fixed point.
-/

namespace ElasticPool.Settings

/-- The document spells out the members, an array by the places of its items. -/
inductive Spells : Json → List (String × Json) → Prop
  | object (members : List (String × Json)) : Spells (.object members) members
  | array {items : List Json} (hlength : items.length ≤ 4) :
      Spells (.array items) (fieldNames.zip items)

def IsWord (v : Json) (n : UInt64) : Prop := v = .word n

inductive IsNumber : Json → Float → Prop
  | word (n : UInt64) : IsNumber (.word n) n.toFloat
  | real (x : Float) : IsNumber (.real x) x

/-- The members supply a field with a value, or with none where they leave it out or, for a
field that need not have a value, write null. -/
inductive Supplies {α : Type} (Value : Json → α → Prop) (optional : Prop)
    (members : List (String × Json)) (name : String) : Option α → Prop
  | missing (hmissing : ∀ v, (name, v) ∉ members) : Supplies Value optional members name none
  | null (hoptional : optional) (hmem : (name, .null) ∈ members) :
      Supplies Value optional members name none
  | value {v : Json} {a : α} (hmem : (name, v) ∈ members) (hvalue : Value v a) :
      Supplies Value optional members name (some a)

/-- The members give the fields.  Each name is known and occurs once at most. -/
structure Describes (members : List (String × Json)) (f : Fields) : Prop where
  distinct : (members.map Prod.fst).Nodup
  known : ∀ name ∈ members.map Prod.fst, name ∈ fieldNames
  minimum : Supplies IsWord False members "min_concurrency" f.minimum?
  maximum : Supplies IsWord False members "max_concurrency" f.maximum?
  desired : Supplies IsWord True members "desired_concurrency" f.desired?
  tasksPerMinute : Supplies IsNumber True members "max_tasks_per_minute" f.tasksPerMinute?

def Gives (document : Json) (f : Fields) : Prop :=
  ∃ members, Spells document members ∧ Describes members f

section Members

variable {α : Type} {Value : Json → α → Prop} {optional : Prop} {read : Json → Option α}
  {members members' : List (String × Json)} {name : String} {v : Json} {value? : Option α}
  {f : Fields}

theorem Supplies.perm (h : Supplies Value optional members name value?)
    (hperm : members.Perm members') : Supplies Value optional members' name value? := by
  cases h with
  | missing hmissing => exact .missing fun v hmem => hmissing v (hperm.mem_iff.mpr hmem)
  | null hoptional hmem => exact .null hoptional (hperm.mem_iff.mp hmem)
  | value hmem hvalue => exact .value (hperm.mem_iff.mp hmem) hvalue

theorem Describes.perm (h : Describes members f) (hperm : members.Perm members') :
    Describes members' f where
  distinct := (hperm.map Prod.fst).nodup_iff.mp h.distinct
  known name hname := h.known name ((hperm.map Prod.fst).mem_iff.mpr hname)
  minimum := h.minimum.perm hperm
  maximum := h.maximum.perm hperm
  desired := h.desired.perm hperm
  tasksPerMinute := h.tasksPerMinute.perm hperm

theorem word?_eq_some_iff {n : UInt64} : word? v = some n ↔ IsWord v n := by
  cases v <;> simp [word?, IsWord]

theorem real?_eq_some_iff {x : Float} : real? v = some x ↔ IsNumber v x := by
  constructor
  · intro h
    cases v with
    | word n =>
        obtain rfl := Option.some.inj h
        exact .word n
    | real y =>
        obtain rfl := Option.some.inj h
        exact .real y
    | null | bool | string | array | object => cases h
  · rintro (n | y) <;> rfl

/-- Where the names are distinct, a member is found by its name. -/
theorem lookup_eq_some_iff (hdistinct : (members.map Prod.fst).Nodup) :
    members.lookup name = some v ↔ (name, v) ∈ members := by
  induction members with
  | nil => simp
  | cons member members ih =>
      obtain ⟨first, w⟩ := member
      rw [List.map_cons, List.nodup_cons] at hdistinct
      -- a name that has been found does not occur again behind it
      rcases eq_or_ne name first with rfl | hne
      · have hnot (u : Json) : (name, u) ∉ members := fun hmem =>
          hdistinct.1 (List.mem_map.mpr ⟨_, hmem, rfl⟩)
        simp [hnot, eq_comm]
      · have hother : (name == first) = false := by simp [hne]
        rw [List.lookup_cons, hother]
        simp [hne, ih hdistinct.2]

theorem lookup_eq_none_iff (hdistinct : (members.map Prod.fst).Nodup) :
    members.lookup name = none ↔ ∀ v, (name, v) ∉ members := by
  simp only [← lookup_eq_some_iff hdistinct, ← Option.eq_none_iff_forall_ne_some]

theorem nullable_of_ne_null (hne : v ≠ .null) : nullable read (some v) = (read v).map some := by
  cases v with
  | null => exact absurd rfl hne
  | bool | word | real | string | array | object => rfl

variable (hread : ∀ v a, read v = some a ↔ Value v a)
  (hdistinct : (members.map Prod.fst).Nodup)

include hread hdistinct

theorem given_eq_some_iff : given read (members.lookup name) = some value? ↔
    Supplies Value False members name value? := by
  constructor
  · intro h
    rcases hfound : members.lookup name with _ | v
    · rw [hfound] at h
      obtain rfl := Option.some.inj h
      exact .missing ((lookup_eq_none_iff hdistinct).mp hfound)
    · rw [hfound] at h
      obtain ⟨a, ha, rfl⟩ := Option.map_eq_some_iff.mp h
      exact .value ((lookup_eq_some_iff hdistinct).mp hfound) ((hread v a).mp ha)
  · intro h
    cases h with
    | missing hmissing =>
        rw [(lookup_eq_none_iff hdistinct).mpr hmissing]
        rfl
    | null hoptional => exact hoptional.elim
    | value hmem hvalue =>
        rw [(lookup_eq_some_iff hdistinct).mpr hmem, given, (hread _ _).mpr hvalue]
        rfl

theorem nullable_eq_some_iff (hnull : read .null = none) :
    nullable read (members.lookup name) = some value? ↔
      Supplies Value True members name value? := by
  constructor
  · intro h
    rcases hfound : members.lookup name with _ | v
    · rw [hfound] at h
      obtain rfl := Option.some.inj h
      exact .missing ((lookup_eq_none_iff hdistinct).mp hfound)
    · have hmem := (lookup_eq_some_iff hdistinct).mp hfound
      rw [hfound] at h
      rcases eq_or_ne v .null with rfl | hne
      · obtain rfl := Option.some.inj h
        exact .null trivial hmem
      · rw [nullable_of_ne_null hne] at h
        obtain ⟨a, ha, rfl⟩ := Option.map_eq_some_iff.mp h
        exact .value hmem ((hread v a).mp ha)
  · intro h
    cases h with
    | missing hmissing =>
        rw [(lookup_eq_none_iff hdistinct).mpr hmissing]
        rfl
    | null hoptional hmem =>
        rw [(lookup_eq_some_iff hdistinct).mpr hmem]
        rfl
    | @value v a hmem hvalue =>
        have ha := (hread v a).mpr hvalue
        -- null would be taken for a missing value before it is read
        have hne : v ≠ .null := by
          rintro rfl
          cases hnull.symm.trans ha
        rw [(lookup_eq_some_iff hdistinct).mpr hmem, nullable_of_ne_null hne, ha]
        rfl

end Members

theorem Fields.ofValues?_eq_some_iff {minimum maximum desired rate : Option Json} {f : Fields} :
    ofValues? minimum maximum desired rate = some f ↔ given word? minimum = some f.minimum? ∧
      given word? maximum = some f.maximum? ∧ nullable word? desired = some f.desired? ∧
      nullable real? rate = some f.tasksPerMinute? := by
  obtain ⟨minimum?, maximum?, desired?, tasksPerMinute?⟩ := f
  simp [ofValues?, Option.bind_eq_some_iff]

theorem Fields.ofJson?_object_eq_some_iff {members : List (String × Json)} {f : Fields} :
    ofJson? (.object members) = some f ↔ Describes members f := by
  have hword (v : Json) (n : UInt64) : word? v = some n ↔ IsWord v n := word?_eq_some_iff
  have hnumber (v : Json) (x : Float) : real? v = some x ↔ IsNumber v x := real?_eq_some_iff
  constructor
  · intro h
    rw [ofJson?] at h
    split at h
    · rename_i hnames
      obtain ⟨hminimum, hmaximum, hdesired, hrate⟩ := ofValues?_eq_some_iff.mp h
      exact ⟨hnames.1, hnames.2, (given_eq_some_iff hword hnames.1).mp hminimum,
        (given_eq_some_iff hword hnames.1).mp hmaximum,
        (nullable_eq_some_iff hword hnames.1 rfl).mp hdesired,
        (nullable_eq_some_iff hnumber hnames.1 rfl).mp hrate⟩
    · cases h
  · intro h
    rw [ofJson?, if_pos ⟨h.distinct, h.known⟩]
    exact ofValues?_eq_some_iff.mpr ⟨(given_eq_some_iff hword h.distinct).mpr h.minimum,
      (given_eq_some_iff hword h.distinct).mpr h.maximum,
      (nullable_eq_some_iff hword h.distinct rfl).mpr h.desired,
      (nullable_eq_some_iff hnumber h.distinct rfl).mpr h.tasksPerMinute⟩

/-- An array gives the fields that the object with the same values gives. -/
theorem Fields.ofJson?_array {items : List Json} (hlength : items.length ≤ 4) :
    ofJson? (.array items) = ofJson? (.object (fieldNames.zip items)) := by
  match items with
  | [] | [_] | [_, _] | [_, _, _] | [_, _, _, _] => rfl
  | _ :: _ :: _ :: _ :: _ :: _ =>
      simp only [List.length_cons] at hlength
      omega

theorem Fields.ofJson?_eq_some_iff {document : Json} {f : Fields} :
    ofJson? document = some f ↔ Gives document f := by
  constructor
  · intro h
    cases document with
    | object members => exact ⟨members, .object members, ofJson?_object_eq_some_iff.mp h⟩
    | array items =>
        by_cases hlength : items.length ≤ 4
        · rw [ofJson?_array hlength] at h
          exact ⟨_, .array hlength, ofJson?_object_eq_some_iff.mp h⟩
        · rw [ofJson?, if_neg hlength] at h
          cases h
    | null | bool | word | real | string => cases h
  · rintro ⟨members, hspells, hdescribes⟩
    cases hspells with
    | object => exact ofJson?_object_eq_some_iff.mpr hdescribes
    | array hlength =>
        rw [ofJson?_array hlength]
        exact ofJson?_object_eq_some_iff.mpr hdescribes

/-- What reading a document comes to: settings, the rule that its fields break, or nothing of
the right shape. -/
structure Answers (document : Json) (answer : Except DocumentError Settings) : Prop where
  ok_iff : ∀ s, answer = .ok s ↔ ∃ f, Gives document f ∧ build f = .ok s
  refused_iff : ∀ cause,
    answer = .error (.refused cause) ↔ ∃ f, Gives document f ∧ build f = .error cause
  malformed_iff : answer = .error .malformed ↔ ∀ f, ¬Gives document f

theorem answers_ofJson (document : Json) : Answers document (ofJson document) := by
  rcases hread : Fields.ofJson? document with _ | f
  · have hnone (f : Fields) : ¬Gives document f := by
      simp [← Fields.ofJson?_eq_some_iff, hread]
    rw [ofJson, hread]
    constructor <;> simp [hnone]
  · have hgives (g : Fields) : Gives document g ↔ g = f := by
      rw [← Fields.ofJson?_eq_some_iff, hread, Option.some.injEq, eq_comm]
    rw [ofJson, hread]
    cases hbuild : build f <;> constructor <;> simp [hgives, hbuild, Except.mapError]

theorem ofJson_perm {members members' : List (String × Json)} (hperm : members.Perm members') :
    ofJson (.object members) = ofJson (.object members') := by
  have hfields : Fields.ofJson? (.object members) = Fields.ofJson? (.object members') := by
    ext f
    rw [Fields.ofJson?_object_eq_some_iff, Fields.ofJson?_object_eq_some_iff]
    exact ⟨fun h => h.perm hperm, fun h => h.perm hperm.symm⟩
  rw [ofJson, ofJson, hfields]

theorem ofJson_array {items : List Json} (hlength : items.length ≤ 4) :
    ofJson (.array items) = ofJson (.object (fieldNames.zip items)) := by
  rw [ofJson, ofJson, Fields.ofJson?_array hlength]

def Writes (text : String) (document : Json) : Prop :=
  ∃ rest, Json.Reader.value text.toList = some (document, rest) ∧ Json.Reader.atEnd rest

theorem ofText_of_writes {text : String} {document : Json} (h : Writes text document) :
    ofText text = ofJson document := by
  obtain ⟨rest, hvalue, hend⟩ := h
  simp only [ofText, hvalue, hend, if_true]
  cases ofJson document <;> rfl

theorem writes_of_ofText {text : String} {s : Settings} (h : ofText text = .ok s) :
    ∃ document, Writes text document ∧ ofJson document = .ok s := by
  rw [ofText] at h
  split at h
  · cases h
  · rename_i document rest hvalue
    rcases hread : ofJson document with cause | found
    · rw [hread] at h
      cases h
    · rw [hread] at h
      by_cases hend : Json.Reader.atEnd rest
      · have hwrites : Writes text document := ⟨rest, hvalue, hend⟩
        simp only [hend, if_true] at h
        exact ⟨document, hwrites, hread.trans h⟩
      · simp [hend, bind, Except.bind] at h

structure Completes (f : Fields) (s : Settings) : Prop where
  minimum_eq : s.minimum = f.minimum?.getD 1
  maximum_eq : s.maximum = f.maximum?.getD 200
  desired_eq : s.desired = f.desired?.getD (f.minimum?.getD 1)
  tasksPerMinute_eq : s.tasksPerMinute = f.tasksPerMinute?

theorem completes_of_build {f : Fields} {s : Settings} (h : build f = .ok s) : Completes f s := by
  rw [build] at h
  split at h
  · split at h
    · split at h
      · split at h
        · rename_i hrate
          obtain rfl := Except.ok.inj h
          exact ⟨rfl, rfl, rfl, hrate.symm⟩
        · rename_i rate hrate
          split at h
          · obtain rfl := Except.ok.inj h
            exact ⟨rfl, rfl, rfl, hrate.symm⟩
          · cases h
      · cases h
    · cases h
  · cases h

/-- The rules, which all settings keep wherever they come from. -/
structure InRange (s : Settings) : Prop where
  one_le_minimum : 1 ≤ s.minimum
  minimum_le_desired : s.minimum ≤ s.desired
  desired_le_maximum : s.desired ≤ s.maximum
  rate : ∀ rate, s.tasksPerMinute = some rate → rate.isFinite ∧ 0 < rate

theorem inRange (s : Settings) : InRange s where
  one_le_minimum := s.one_le_minimum
  minimum_le_desired := s.minimum_le_desired
  desired_le_maximum := s.desired_le_maximum
  rate := s.accepted_rate

/-- A text holds settings exactly if it is a document that gives fields which keep the rules,
whatever the order of its members and whichever form it has. -/
theorem settings_of_documents :
    (∀ text s, ofText text = .ok s ↔
      ∃ document f, Writes text document ∧ Gives document f ∧ build f = .ok s) ∧
    (∀ text document, Writes text document → ofText text = ofJson document) ∧
    (∀ document, Answers document (ofJson document)) ∧
    (∀ members members', members.Perm members' →
      ofJson (.object members) = ofJson (.object members')) ∧
    (∀ items, items.length ≤ 4 →
      ofJson (.array items) = ofJson (.object (fieldNames.zip items))) ∧
    (∀ f s, build f = .ok s → Completes f s) ∧
    ∀ s, InRange s := by
  refine ⟨fun text s => ?_, fun _ _ => ofText_of_writes, answers_ofJson, fun _ _ => ofJson_perm,
    fun _ => ofJson_array, fun _ _ => completes_of_build, inRange⟩
  constructor
  · intro h
    obtain ⟨document, hwrites, hread⟩ := writes_of_ofText h
    obtain ⟨f, hgives, hbuild⟩ := ((answers_ofJson document).ok_iff s).mp hread
    exact ⟨document, f, hwrites, hgives, hbuild⟩
  · rintro ⟨document, f, hwrites, hgives, hbuild⟩
    rw [ofText_of_writes hwrites]
    exact ((answers_ofJson document).ok_iff s).mpr ⟨f, hgives, hbuild⟩

/-- An array, and an object with the two values the other way round under names of which one
has an escaped letter. -/
theorem settings_of_documents_of_escape : ∃ s,
    ofText "[2, 8]" = .ok s ∧
    ofText "\x7b\"max_concurrency\": 8, \"min_concurrenc\\u0079\": 2\x7d " = .ok s ∧
    Completes ⟨some 2, some 8, none, none⟩ s := by
  obtain ⟨-, hofText, -, hperm, harray, hcompletes, -⟩ := settings_of_documents
  have hitems : Writes "[2, 8]" (.array [.word 2, .word 8]) := ⟨[], by cbv, rfl⟩
  have hmembers : Writes
      "\x7b\"max_concurrency\": 8, \"min_concurrenc\\u0079\": 2\x7d "
      (.object [("max_concurrency", .word 8), ("min_concurrency", .word 2)]) :=
    ⟨[' '], by cbv, rfl⟩
  obtain ⟨s, hbuild, hread⟩ : ∃ s, build ⟨some 2, some 8, none, none⟩ = .ok s ∧
      ofJson (.array [.word 2, .word 8]) = .ok s := ⟨_, rfl, rfl⟩
  refine ⟨s, (hofText _ _ hitems).trans hread, ?_, hcompletes _ _ hbuild⟩
  rw [hofText _ _ hmembers, hperm _ _ (.swap _ _ []), ← hread, harray _ (by decide)]
  rfl

def normalForm? (document : Json) : Option Json := (ofJson document).toOption.map toJson

theorem ofJson_toJson (s : Settings) : ofJson s.toJson = .ok s := by
  have hfields : Fields.ofJson? s.toJson = some s.fields := by
    rw [toJson, fields]
    cases s.tasksPerMinute <;> rfl
  rw [ofJson, hfields]
  show (build s.fields).mapError DocumentError.refused = .ok s
  rw [build_fields]
  rfl

theorem beq_self (s : Settings) : (s == s) = true := by
  have hrate : (s.tasksPerMinute == s.tasksPerMinute) = true := by
    -- a float is equal to itself only if it is a number, which an accepted rate is
    rcases hsome : s.tasksPerMinute with _ | rate
    · rfl
    · obtain ⟨q, hq⟩ := Option.isSome_iff_exists.mp
        ((Binary64.isFinite_iff rate).mp (s.accepted_rate rate hsome).1)
      exact (Binary64.beq_iff hq hq).mpr rfl
  show (s.minimum == s.minimum && s.maximum == s.maximum && s.desired == s.desired &&
    s.tasksPerMinute == s.tasksPerMinute) = true
  simp [hrate]

/-- Settings that are written out are read back, so that the written form of what a document
holds, which spells out all fields, is its own written form. -/
theorem written_settings_read_back :
    (∀ s : Settings, ofJson s.toJson = .ok s ∧ s.readsBack = true) ∧
    (∀ document normal, normalForm? document = some normal →
      ofJson normal = ofJson document ∧ normalForm? normal = some normal ∧
        ∃ members, normal = .object members ∧ members.map Prod.fst = fieldNames) ∧
    ∀ text s, ofText text = .ok s →
      ∃ document, Writes text document ∧ normalForm? document = some s.toJson := by
  refine ⟨fun s => ⟨ofJson_toJson s, ?_⟩, fun document normal h => ?_, fun text s h => ?_⟩
  · rw [readsBack, ofJson_toJson]
    exact beq_self s
  · rcases hread : ofJson document with cause | s
    · rw [normalForm?, hread] at h
      cases h
    · rw [normalForm?, hread] at h
      obtain rfl := Option.some.inj h
      refine ⟨ofJson_toJson s, ?_, _, rfl, rfl⟩
      rw [normalForm?, ofJson_toJson]
      rfl
  · obtain ⟨document, hwrites, hread⟩ := writes_of_ofText h
    refine ⟨document, hwrites, ?_⟩
    rw [normalForm?, hread]
    rfl

/-- The minimum is given, and the rest is filled in. -/
theorem written_settings_read_back_of_minimum : ∃ s document,
    ofText "[2]" = .ok s ∧ normalForm? document = some s.toJson ∧
      ofJson s.toJson = ofJson document ∧ normalForm? s.toJson = some s.toJson := by
  have hwrites : Writes "[2]" (.array [.word 2]) := ⟨[], by cbv, rfl⟩
  obtain ⟨s, hread⟩ : ∃ s, ofJson (.array [.word 2]) = .ok s := ⟨_, rfl⟩
  have htext : ofText "[2]" = .ok s := (ofText_of_writes hwrites).trans hread
  obtain ⟨document, -, hnormal⟩ := written_settings_read_back.2.2 _ s htext
  obtain ⟨hagain, hfixed, -⟩ := written_settings_read_back.2.1 document _ hnormal
  exact ⟨s, document, htext, hnormal, hagain, hfixed⟩

end ElasticPool.Settings
