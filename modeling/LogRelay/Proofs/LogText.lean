import LogRelay.Chain.LogJson
import LogRelay.Proofs.JsonText

/-!
# Reading back logs and jobs

A log is read back from its text: the text is that of a plain value, and each field is
read back from the member that was written for it.  What a log is read as depends on
which members with the names of its fields there are, but neither on their order nor on
any other member (`RawLog.deserialize?_assemble_congr`).

Jobs are read back as well: identifiers from their long form, whose hyphens stand where
they are looked for, and numbers with their sign.
-/

namespace LogRelay

/-! ## Records -/

namespace Json

variable {members others : List (String × Json)} {names : List String}

/-- The only members that a field looks at are those with names of the record. -/
theorem named_filter {name : String} (hname : name ∈ names) :
    named (members.filter fun member => member.1 ∈ names) name = named members name := by
  unfold named
  rw [List.filter_filter]
  congr 1
  refine List.filter_congr fun member _ => ?_
  by_cases hmember : member.1 = name <;> simp [hmember, hname]

theorem field?_congr {name : String} (h : (named members name).Perm (named others name)) :
    field? members name = field? others name := by
  unfold field?
  generalize named members name = first at h
  generalize named others name = second at h
  match first, second, h.length_eq with
  | [], [], _ => rfl
  | [value], [other], _ => rw [List.singleton_perm_singleton.mp h]
  | _ :: _ :: _, _ :: _ :: _, _ => rfl

/-- What the fields of a record are read from depends on the members with their names only, and
not on their order. -/
theorem record?_congr (h : (members.filter fun member => member.1 ∈ names).Perm
      (others.filter fun member => member.1 ∈ names)) :
    record? names (object members) = record? names (object others) := by
  have hfield : ∀ name ∈ names, field? members name = field? others name := by
    intro name hname
    have hnamed : (named (members.filter fun member => member.1 ∈ names) name).Perm
        (named (others.filter fun member => member.1 ∈ names) name) := (h.filter _).map _
    rw [named_filter hname, named_filter hname] at hnamed
    exact field?_congr hnamed
  clear h
  unfold record?
  induction names with
  | nil => rfl
  | cons name names ih =>
    simp only [List.mapM_cons, hfield name List.mem_cons_self,
      ih fun name hname => hfield name (List.mem_cons_of_mem _ hname)]

theorem isPlain_of_mem {form : Form} {name : String} {value : Json}
    (h : MembersArePlain form members) (hmem : (name, value) ∈ members) :
    IsPlain (form.ofMember name) value := by
  induction members with
  | nil => cases hmem
  | cons member members ih =>
    rcases List.mem_cons.mp hmem with rfl | hmem
    · exact h.1
    · exact ih h.2 hmem

end Json

/-! ## Bytes and numbers -/

theorem wordOfJson?_text {size : Nat} (word : Word size) :
    wordOfJson? size (.string word.text) = some word := by
  simp [wordOfJson?, bytesOfJson?, Word.text, Hex.decode?_encode, Word.ofBytes?, word.length_bytes]

theorem uint64OfJson?_ofNat (value : UInt64) :
    uint64OfJson? (.number (.ofNat value.toNat)) = some value := by
  simp [uint64OfJson?, Json.nat?, Json.Number.toNat?, Json.Number.ofNat]

theorem int32OfJson?_ofInt (value : Int32) :
    int32OfJson? (.number (.ofInt value.toInt)) = some value := by
  have hlow : -2147483648 ≤ value.toInt := value.minValue_le_toInt
  have hhigh : value.toInt ≤ 2147483647 := value.toInt_le
  have hint : (Json.number (.ofInt value.toInt)).int? = some value.toInt := by
    change Json.Number.toInt? ⟨decide (value.toInt < 0), value.toInt.natAbs, 0, true⟩ = _
    by_cases hneg : value.toInt < 0
    · have habs : -(value.toInt.natAbs : Int) = value.toInt := by omega
      have hleast : Decimal.leastInt64 ≤ -2147483648 := by decide
      have hfits : Decimal.leastInt64 ≤ value.toInt := Int.le_trans hleast hlow
      simp only [Json.Number.toInt?, habs, hneg, decide_true, if_true, Bool.not_true,
        Bool.false_eq_true, if_false, hfits, and_self]
    · have habs : (value.toInt.natAbs : Int) = value.toInt := by omega
      simp only [Json.Number.toInt?, habs, hneg, decide_false, Bool.not_true, Bool.false_eq_true,
        if_false]
  simp [int32OfJson?, hint, hlow, hhigh]

/-! ## Logs -/

namespace RawLog

theorem topics?_toJson (topics : List Hash) :
    Json.list? (wordOfJson? 32) (.list (topics.map fun topic => .string topic.text)) =
      some topics := by
  simp only [Json.list?, List.mapM_map, Function.comp_def, wordOfJson?_text]
  exact (List.mapM_pure ..).trans (by simp)

/-- Each field finds the member that was written for it. -/
theorem record?_toJson (log : RawLog) :
    Json.record? memberNames log.toJson = some (log.toMembers.map fun member => some member.2) := by
  simp [toJson, Json.record?, memberNames, toMembers, Json.field?, Json.named]

theorem ofJson?_toJson (log : RawLog) : ofJson? log.toJson = some log := by
  have hdata : bytesOfJson? (.string (Hex.encode log.data)) = some log.data :=
    Hex.decode?_encode log.data
  simp [ofJson?, record?_toJson, toMembers, Field.required, wordOfJson?_text,
    uint64OfJson?_ofNat, topics?_toJson, hdata, Json.bool?]

theorem isPlain_toJson (log : RawLog) : Json.IsPlain form log.toJson := by
  have htopics (topics : List Hash) (place : Nat) :
      Json.ArePlain (.list (.word 32)) place (topics.map fun topic => .string topic.text) := by
    induction topics generalizing place with
    | nil => trivial
    | cons topic topics ih => exact ⟨trivial, ih _⟩
  have hnumber (form : Json.Form) (value : UInt64) :
      Json.IsPlain form (.number (.ofNat value.toNat)) :=
    ⟨rfl, rfl, Nat.le_of_lt_succ value.toNat_lt⟩
  exact ⟨trivial, ⟨nofun, htopics _ _⟩, trivial, hnumber _ _, trivial, trivial, hnumber _ _,
    hnumber _ _, trivial, trivial⟩

theorem deserialize?_serialize (log : RawLog) : deserialize? log.serialize = some log := by
  simp only [deserialize?, serialize, Json.read?_render log.isPlain_toJson, Option.bind_eq_bind,
    Option.bind_some, ofJson?_toJson]

/-- The members of a log as they stand in its text. -/
def writtenMembers (log : RawLog) : List (String × String) :=
  log.toMembers.map fun (name, value) => (name, value.render)

theorem serialize_eq (log : RawLog) : log.serialize = Json.assemble log.writtenMembers :=
  Json.render_object log.toMembers

/-- The members with the names of the fields of a log. -/
def ownMembers (members : List (String × String)) : List (String × String) :=
  members.filter fun member => member.1 ∈ memberNames

/-- Each member can be read on its own, as what it has to hold. -/
def AreReadable (members : List (String × String)) : Prop :=
  ∀ member ∈ members, (Json.read? (form.ofMember member.1) member.2).isSome

theorem deserialize?_assemble {members : List (String × String)} (h : AreReadable members) :
    deserialize? (Json.assemble members) =
      ofJson? (.object (members.map (Json.readMember form))) := by
  simp [deserialize?, Json.read?_assemble h]

/-- What a text of members is read as depends on the members of the log among them only, and not
on their order. -/
theorem deserialize?_assemble_congr {members others : List (String × String)}
    (hmembers : AreReadable members) (hothers : AreReadable others)
    (h : (ownMembers members).Perm (ownMembers others)) :
    deserialize? (Json.assemble members) = deserialize? (Json.assemble others) := by
  have hown (members : List (String × String)) :
      ((members.map (Json.readMember form)).filter fun member => member.1 ∈ memberNames) =
        (ownMembers members).map (Json.readMember form) := by
    rw [List.filter_map]
    rfl
  have hrecord : Json.record? memberNames (.object (members.map (Json.readMember form))) =
      Json.record? memberNames (.object (others.map (Json.readMember form))) := by
    apply Json.record?_congr
    rw [hown, hown]
    exact h.map _
  rw [deserialize?_assemble hmembers, deserialize?_assemble hothers]
  simp only [ofJson?, hrecord]

theorem areReadable_writtenMembers (log : RawLog) : AreReadable log.writtenMembers := by
  intro member hmember
  obtain ⟨⟨name, value⟩, hmem, rfl⟩ := List.mem_map.mp hmember
  rw [Json.read?_render (Json.isPlain_of_mem log.isPlain_toJson hmem)]
  rfl

/-- A member with a foreign name may hold anything. -/
theorem ofMember_of_not_mem {name : String} (h : name ∉ memberNames) :
    form.ofMember name = .any := by
  simp only [memberNames, List.mem_cons, List.not_mem_nil, or_false, not_or] at h
  simp [form, Json.Form.ofMember, List.lookup_cons, beq_false_of_ne, h]

theorem ownMembers_writtenMembers (log : RawLog) :
    ownMembers log.writtenMembers = log.writtenMembers := by
  simp [ownMembers, writtenMembers, toMembers, memberNames]

/-- The members of a log are readable in any order and among any others that hold a value. -/
theorem areReadable_of_own {log : RawLog} {members : List (String × String)}
    (hown : (ownMembers members).Perm log.writtenMembers)
    (hforeign : ∀ member ∈ members, member.1 ∉ memberNames → (Json.parse? member.2).isSome) :
    AreReadable members := by
  intro member hmember
  by_cases hname : member.1 ∈ memberNames
  · have hwritten : member ∈ log.writtenMembers :=
      hown.mem_iff.mp (List.mem_filter.mpr ⟨hmember, by simpa using hname⟩)
    exact log.areReadable_writtenMembers member hwritten
  · rw [ofMember_of_not_mem hname]
    exact hforeign member hmember hname

end RawLog

/-! ## Jobs -/

namespace Uuid

/-- Nothing that stands before the long form or between its groups is a digit. -/
theorem isProper_of_mem_encodeChars {bytes : Bytes} {c : Char} (h : c ∈ Hex.encodeChars bytes) :
    c ≠ '-' ∧ c ≠ '\x7b' ∧ c.toLower ≠ 'u' := by
  have hdigit : ∀ value < 16, Hex.digit value ≠ '-' ∧ Hex.digit value ≠ '\x7b' ∧
      (Hex.digit value).toLower ≠ 'u' := by decide
  obtain ⟨byte, -, hc⟩ := List.mem_flatMap.mp h
  have hbyte : byte.toNat < 256 := byte.toNat_lt
  simp only [List.mem_cons, List.not_mem_nil, or_false] at hc
  rcases hc with rfl | rfl <;> exact hdigit _ (by omega)

theorem length_encodeChars (bytes : Bytes) : (Hex.encodeChars bytes).length = 2 * bytes.length := by
  induction bytes with
  | nil => rfl
  | cons byte bytes ih =>
    simp only [Hex.encodeChars, List.flatMap_cons, List.length_append, List.length_cons] at ih ⊢
    simp only [List.length_nil]
    omega

theorem filter_hyphenate {digits : List Char} (h : ∀ c ∈ digits, c ≠ '-') :
    (hyphenate digits).filter (· != '-') = digits := by
  have hgroups : digits = digits.take 8 ++ ((digits.drop 8).take 4 ++ ((digits.drop 12).take 4 ++
      ((digits.drop 16).take 4 ++ digits.drop 20))) := by
    have htake (count : Nat) : (digits.drop count).take 4 ++ digits.drop (count + 4) =
        digits.drop count := by
      rw [← List.drop_drop, List.take_append_drop]
    rw [htake 16, htake 12, htake 8, List.take_append_drop]
  have hall : digits.filter (· != '-') = digits :=
    List.filter_eq_self.mpr fun c hc => by simpa using h c hc
  calc (hyphenate digits).filter (· != '-')
      = (digits.take 8 ++ ((digits.drop 8).take 4 ++ ((digits.drop 12).take 4 ++
          ((digits.drop 16).take 4 ++ digits.drop 20)))).filter (· != '-') := by
        simp [hyphenate]
    _ = digits := by rw [← hgroups, hall]

theorem length_hyphenate {digits : List Char} (h : digits.length = 32) :
    (hyphenate digits).length = 36 := by
  simp [hyphenate, h]

/-- The long form is not taken for one in braces or with a mark in front. -/
theorem unbracket_hyphenate {digits : List Char} (hne : digits ≠ [])
    (h : ∀ c ∈ digits, c ≠ '\x7b' ∧ c.toLower ≠ 'u') :
    unbracket (hyphenate digits) = hyphenate digits := by
  obtain ⟨c, more, rfl⟩ := List.exists_cons_of_ne_nil hne
  obtain ⟨hbrace, hmark⟩ := h c List.mem_cons_self
  obtain ⟨rest, hrest⟩ : ∃ rest, hyphenate (c :: more) = c :: rest := ⟨_, rfl⟩
  rw [hrest]
  have hlower : ((c :: rest).take mark.length).map Char.toLower ≠ mark :=
    fun heq => hmark (List.cons.inj heq).1
  unfold unbracket
  split
  · next heq => exact absurd (List.cons.inj heq).1 hbrace
  · exact if_neg hlower

/-- An identifier is read back from its long form. -/
theorem parse?_long (id : Uuid) : parse? (long id) = some id := by
  obtain ⟨digits, hdigits⟩ : ∃ digits, Hex.encodeChars id.bytes = digits := ⟨_, rfl⟩
  have hproper : ∀ c ∈ digits, c ≠ '-' ∧ c ≠ '\x7b' ∧ c.toLower ≠ 'u' :=
    fun c hc => isProper_of_mem_encodeChars (hdigits ▸ hc)
  have hlength : digits.length = 32 := by
    rw [← hdigits, length_encodeChars, id.length_bytes]
  have hne : digits ≠ [] := by
    rintro rfl
    cases hlength
  have hread : ofDigits? digits = some id := by
    simp [← hdigits, ofDigits?, Hex.decodeChars?_encodeChars, Word.ofBytes?, id.length_bytes]
  simp [parse?, long, hdigits, length_hyphenate hlength, unhyphenate?,
    unbracket_hyphenate hne fun c hc => (hproper c hc).2,
    filter_hyphenate fun c hc => (hproper c hc).1, hlength, hread]

theorem deserialize?_serialize (id : Uuid) : deserialize? id.serialize = some id := by
  have hplain : Json.IsPlain .any (toJson id) := trivial
  have hread : Json.parse? id.serialize = some (toJson id) := Json.read?_render hplain
  simp only [deserialize?, hread, Option.bind_eq_bind, Option.bind_some]
  exact parse?_long id

end Uuid

namespace JobIdentity

theorem deserialize?_serialize (job : JobIdentity) : deserialize? job.serialize = some job := by
  have hplain : Json.IsPlain .any job.toJson := by
    cases job with
    | v1 id => exact ⟨trivial, trivial⟩
    | v2 id =>
      have hlow : -2147483648 ≤ id.toInt := id.minValue_le_toInt
      have hhigh : id.toInt ≤ 2147483647 := id.toInt_le
      have hvalue : id.toInt.natAbs ≤ 18446744073709551615 := by omega
      exact ⟨⟨rfl, rfl, hvalue⟩, trivial⟩
  have hread : Json.parse? job.serialize = some job.toJson := Json.read?_render hplain
  simp only [deserialize?, hread, Option.bind_eq_bind, Option.bind_some]
  cases job with
  | v1 id => exact congrArg (·.map v1) (Uuid.parse?_long id)
  | v2 id => exact congrArg (·.map v2) (int32OfJson?_ofInt id)

end JobIdentity

/-! ## Both -/

/-- **Logs and jobs are read back from their texts.**  A log is read back too if the members of
its text are brought into another order and members with other names are added, wherever they
stand and whatever they hold; in general, what a text of members is read as depends neither on the
order of the members nor on those with other names. -/
theorem texts_are_read_back :
    (∀ log : RawLog, log.serialize = Json.assemble log.writtenMembers ∧
      RawLog.deserialize? log.serialize = some log) ∧
    (∀ (log : RawLog) (members : List (String × String)),
      (RawLog.ownMembers members).Perm log.writtenMembers →
      (∀ member ∈ members, member.1 ∉ RawLog.memberNames → (Json.parse? member.2).isSome) →
      RawLog.deserialize? (Json.assemble members) = some log) ∧
    (∀ members others : List (String × String),
      RawLog.AreReadable members → RawLog.AreReadable others →
      (RawLog.ownMembers members).Perm (RawLog.ownMembers others) →
      RawLog.deserialize? (Json.assemble members) = RawLog.deserialize? (Json.assemble others)) ∧
    (∀ id : Uuid, Uuid.deserialize? id.serialize = some id) ∧
    (∀ job : JobIdentity, JobIdentity.deserialize? job.serialize = some job) := by
  refine ⟨fun log => ⟨log.serialize_eq, log.deserialize?_serialize⟩, ?_,
    fun _ _ => RawLog.deserialize?_assemble_congr, Uuid.deserialize?_serialize,
    JobIdentity.deserialize?_serialize⟩
  intro log members hown hforeign
  rw [RawLog.deserialize?_assemble_congr (RawLog.areReadable_of_own hown hforeign)
    log.areReadable_writtenMembers (by rwa [log.ownMembers_writtenMembers]), ← log.serialize_eq,
    log.deserialize?_serialize]

namespace Sample

/-- A log with one topic and the greatest block number. -/
def reversedLog : RawLog :=
  { topics := [default], data := [0xAB, 0x0C], blockNumber := 18446744073709551615,
    removed := true }

/-- The members of its text in reverse order, behind one with another name. -/
def reversedMembers : List (String × String) :=
  ("note", "[null, \x7b\x7d]") :: reversedLog.writtenMembers.reverse

end Sample

theorem sample_texts_are_read_back :
    (RawLog.ownMembers Sample.reversedMembers).Perm Sample.reversedLog.writtenMembers ∧
    RawLog.deserialize? (Json.assemble Sample.reversedMembers) = some Sample.reversedLog ∧
    RawLog.deserialize? (Json.assemble Sample.reversedMembers) =
      RawLog.deserialize? (Json.assemble Sample.reversedLog.writtenMembers) := by
  have hwritten := RawLog.ownMembers_writtenMembers Sample.reversedLog
  have hown :
      (RawLog.ownMembers Sample.reversedMembers).Perm Sample.reversedLog.writtenMembers := by
    rw [RawLog.ownMembers] at hwritten
    rw [RawLog.ownMembers, Sample.reversedMembers, List.filter_cons_of_neg (by decide),
      List.filter_reverse, hwritten]
    exact List.reverse_perm _
  have hforeign : ∀ member ∈ Sample.reversedMembers, member.1 ∉ RawLog.memberNames →
      (Json.parse? member.2).isSome := by
    intro member hmember hname
    rcases List.mem_cons.mp hmember with rfl | hmember
    · decide +kernel
    · rw [List.mem_reverse, ← hwritten] at hmember
      exact absurd (by simpa using (List.mem_filter.mp hmember).2) hname
  have hreadable := RawLog.areReadable_of_own hown hforeign
  refine ⟨hown, texts_are_read_back.2.1 _ _ hown hforeign, ?_⟩
  exact texts_are_read_back.2.2.1 _ _ hreadable
    (RawLog.areReadable_writtenMembers Sample.reversedLog) (by rwa [hwritten])

end LogRelay
