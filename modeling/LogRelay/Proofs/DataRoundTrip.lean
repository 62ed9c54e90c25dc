import LogRelay.Proofs.HeadTail
import LogRelay.Proofs.MemoryUse
import LogRelay.Proofs.TextBytes
import LogRelay.Proofs.WordCodec

/-!
# Reading back what was encoded

A value that was laid out as a part of a list is read back (`AbiType.roundTrips`), and reading
goes on right behind what stands for it in the head.  The induction is on the type; within a
list (`AbiType.readAll_layOut`) what is carried along is where the part of the tail begins that
belongs to the items that are still to come.

What can be read is bounded by the decoder and not by the encoding: sizes are counted with 64
bits, at most sixteen frames stand inside each other, and there is memory only for so many items.
Of these bounds that of the memory is exact (`AbiType.decodeAll_encodeAll_iff`).
-/

namespace LogRelay

namespace Frame

/-- The sizes in the frame can be counted, and the memory for the blank values is taken. -/
structure IsBounded (frame : Frame) : Prop where
  content : frame.content.length < sizeCount
  rest : frame.rest.length < sizeCount
  spare : frame.spare < storableItemCount

/-- Next in the frame is a part of a list, that is its content or the distance to it, and then
`tail`. -/
inductive Shows (frame : Frame) (tail : Bytes) : AbiValue.Part → Prop
  | inPlace {content : Bytes} (next : frame.rest = content ++ tail) :
      Shows frame tail ⟨content, false⟩
  | moved {content after : Bytes} {distance : Nat}
      (next : frame.rest = (Word.ofNat 32 distance).bytes ++ tail)
      (within : distance ≤ frame.content.length)
      (there : frame.content.drop distance = content ++ after) : Shows frame tail ⟨content, true⟩

/-- The frame has just been opened where `front` stands. -/
structure Opens (frame : Frame) (front after : Bytes) (depth spare : Nat) : Prop where
  content : frame.content = front ++ after
  rest : frame.rest = front ++ after
  depth : frame.depth = depth
  spare : frame.spare = spare
  countable : (front ++ after).length < sizeCount

/-! ## The steps of reading -/

variable {α : Type} {frame : Frame} {tail : Bytes}

theorem child_eq (h : frame.depth < limit) (content : Bytes) :
    frame.child content = .ok ⟨content, content, frame.depth + 1, frame.spare⟩ := by
  rw [child, if_neg (Nat.not_le.mpr h)]

theorem word_eq {word : Word 32} (h : frame.rest = word.bytes ++ tail) :
    Frame.word frame = .ok (word, { frame with rest := tail }) := by
  rw [Frame.word, h, List.take_left' word.length_bytes, List.drop_left' word.length_bytes,
    Word.ofBytes?, dif_pos word.length_bytes]

theorem distance_eq {value : Nat} (h : frame.rest = (Word.ofNat 32 value).bytes ++ tail)
    (hlt : value < sizeCount) :
    distance frame = .ok (value, { frame with rest := tail }) := by
  rw [distance, word_eq h]
  show Except.ok (Bytes.toNat ((Word.ofNat 32 value).bytes.drop 24), _) = _
  rw [Word.toNat_drop_ofNat hlt]

theorem slice_eq {bytes : Bytes} (h : frame.rest = bytes ++ tail)
    (hcount : frame.content.length - frame.rest.length + bytes.length < sizeCount) :
    slice bytes.length frame = .ok (bytes, { frame with rest := tail }) := by
  rw [slice, if_neg (Nat.not_le.mpr hcount), h, if_pos (by simp), List.take_left, List.drop_left]

theorem hold_eq {items : Nat} (h : items ≤ frame.spare) :
    frame.hold items = .ok { frame with spare := frame.spare - items } := by
  rw [hold, if_pos h]

theorem opens_of_eq {content front after : Bytes} (h : content = front ++ after)
    (hlt : content.length < sizeCount) (depth spare : Nat) :
    Opens ⟨content, content, depth, spare⟩ front after depth spare :=
  ⟨h, h, rfl, rfl, h ▸ hlt⟩

theorem here_eq (read : Reading α) (h : frame.depth < limit) :
    here read frame = (read ⟨frame.rest, frame.rest, frame.depth + 1, frame.spare⟩).map
      fun result => (result.1, { frame with rest := result.2.rest, spare := result.2.spare }) := by
  rw [here, child_eq h]
  show (read _ >>= _) = _
  cases read ⟨frame.rest, frame.rest, frame.depth + 1, frame.spare⟩ <;> rfl

theorem childAt_eq {start : Nat} (hdepth : frame.depth < limit)
    (hwithin : start ≤ frame.content.length) :
    frame.childAt start = .ok
      ⟨frame.content.drop start, frame.content.drop start, frame.depth + 1, frame.spare⟩ := by
  rw [childAt, child_eq hdepth]
  show (if start ≤ frame.content.length then _ else _) = _
  rw [if_pos hwithin, child_eq hdepth]

/-- What is read elsewhere is read in a frame that is opened at the moved part. -/
theorem elsewhere_eq {content : Bytes} (hshows : frame.Shows tail ⟨content, true⟩)
    (hcount : frame.content.length < sizeCount) (hdepth : frame.depth < limit) :
    ∃ (opened : Frame) (after : Bytes),
      opened.Opens content after (frame.depth + 1) frame.spare ∧
        ∀ {α : Type} (read : Reading α), elsewhere read frame =
          (read opened).map fun result =>
            (result.1, { frame with rest := tail, spare := result.2.spare }) := by
  cases hshows with
  | @moved _ after start hnext hwithin hthere =>
      have hlength : (frame.content.drop start).length < sizeCount :=
        Nat.lt_of_le_of_lt (by simp) hcount
      refine ⟨⟨frame.content.drop start, frame.content.drop start, frame.depth + 1, frame.spare⟩,
        after, opens_of_eq hthere hlength (frame.depth + 1) frame.spare, fun read => ?_⟩
      rw [elsewhere, distance_eq hnext (Nat.lt_of_le_of_lt hwithin hcount)]
      show (childAt { frame with rest := tail } start >>= fun inner => read inner >>= _) = _
      rw [@childAt_eq { frame with rest := tail } start hdepth hwithin]
      show (read _ >>= _) = _
      cases read ⟨frame.content.drop start, frame.content.drop start, frame.depth + 1,
        frame.spare⟩ <;> rfl

/-- A byte string is read as long as its length says, without what fills its last word. -/
theorem packed_eq {bytes : Bytes} (hshows : frame.Shows tail ⟨AbiValue.packed bytes, true⟩)
    (hcount : frame.content.length < sizeCount) (hdepth : frame.depth < limit) :
    packed frame = .ok (bytes, { frame with rest := tail }) := by
  obtain ⟨opened, after, hopens, helsewhere⟩ := elsewhere_eq hshows hcount hdepth
  have hlength := hopens.countable
  have hnext := hopens.rest
  simp only [AbiValue.packed, List.append_assoc, List.length_append, Word.length_bytes]
    at hnext hlength
  have hslice := @slice_eq { opened with rest := bytes ++ (AbiValue.padding bytes.length ++ after) }
    (AbiValue.padding bytes.length ++ after) bytes rfl (by
      simp only [hopens.content, AbiValue.packed, List.length_append, Word.length_bytes]
      omega)
  rw [packed, helsewhere, distance_eq hnext (by omega)]
  show Except.map _ (slice bytes.length _) = _
  rw [hslice]
  show Except.ok (bytes, { frame with rest := tail, spare := opened.spare }) = _
  rw [hopens.spare]

theorem layoutFault?_of_le {count : Nat} (h : count ≤ storableItemCount) :
    layoutFault? count = none := by
  have hlist : storableItemCount ≤ greatestItemCount := by decide
  rw [layoutFault?]
  split
  · rfl
  · rw [if_neg (by omega), if_neg (by omega)]

/-- A list is read item by item, after the memory for the copied items was taken, if there is so
much and the data is long enough. -/
theorem counted_eq {content : Bytes} {count leastWords blankItems : Nat}
    (hshows : frame.Shows tail ⟨(Word.ofNat 32 count).bytes ++ content, true⟩)
    (hbounded : frame.IsBounded) (hdepth : frame.depth + 2 ≤ limit)
    (hleast : 32 * (leastWords * count) ≤ content.length)
    (hcopied : (count - 1) * (1 + blankItems) ≤ frame.spare) :
    ∃ (opened : Frame) (after : Bytes),
      opened.Opens content after (frame.depth + 2)
        (frame.spare - (count - 1) * (1 + blankItems)) ∧
        ∀ {α : Type} (read : Reading α), counted leastWords blankItems read frame =
          (times read count opened).map fun result =>
            (result.1, { frame with rest := tail, spare := result.2.spare }) := by
  obtain ⟨outer, after, hopens, helsewhere⟩ := elsewhere_eq hshows hbounded.content (by omega)
  have hlength := hopens.countable
  have hnext := hopens.rest
  rw [List.append_assoc] at hnext hlength
  rw [List.length_append, Word.length_bytes] at hlength
  have hstorable : count ≤ storableItemCount := by
    have hitems : count - 1 ≤ (count - 1) * (1 + blankItems) :=
      Nat.le_mul_of_pos_right _ (by omega)
    have hspare := hbounded.spare
    omega
  have hsize : count < sizeCount := Nat.lt_of_le_of_lt hstorable (by decide)
  refine ⟨⟨content ++ after, content ++ after, frame.depth + 2, _⟩, after,
    opens_of_eq rfl (by omega) (frame.depth + 2) _, fun read => ?_⟩
  rw [counted, helsewhere, distance_eq hnext hsize]
  show Except.map _ (if count = 0 then _ else _) = _
  -- an empty list opens no second frame, but nothing would be read in it either
  by_cases hnil : count = 0
  · subst hnil
    show Except.ok (_, { frame with rest := tail, spare := outer.spare }) = _
    rw [hopens.spare]
    simp [times, Except.map]
  · rw [if_neg hnil, here_eq _ (by rw [hopens.depth]; omega), hopens.depth, hopens.spare]
    show Except.map _ (Except.map _ (if sizeCount ≤ leastWords * count then _ else _)) = _
    rw [List.length_append] at hlength
    rw [if_neg (by omega), if_neg (by rw [List.length_append]; omega),
      layoutFault?_of_le hstorable]
    have hheld :=
      @hold_eq ⟨content ++ after, content ++ after, frame.depth + 2, frame.spare⟩ _ hcopied
    show Except.map _ (Except.map _ (hold _ ⟨_, _, frame.depth + 2, _⟩ >>= _)) = _
    rw [hheld]
    show Except.map _ (Except.map _ (times read count _)) = _
    cases times read count _ <;> rfl

/-! ## Parts of a list -/

theorem Shows.length_le {part : AbiValue.Part} (h : frame.Shows tail part) :
    tail.length ≤ frame.rest.length := by
  cases h with
  | inPlace hnext | moved hnext =>
      rw [hnext, List.length_append]
      omega

theorem IsBounded.after {part : AbiValue.Part} (h : frame.IsBounded)
    (hshows : frame.Shows tail part) (items : Nat) :
    IsBounded { frame with rest := tail, spare := frame.spare - items } :=
  ⟨h.content, Nat.lt_of_le_of_lt hshows.length_le h.rest,
    Nat.lt_of_le_of_lt (Nat.sub_le ..) h.spare⟩

/-- Before the first of several parts is read, its own part of the tail begins at `position`;
behind it begins that of the others. -/
theorem shows_first {part : AbiValue.Part} {rest : List AbiValue.Part} {position : Nat}
    {after : Bytes} (hnext : frame.rest = AbiValue.heads position (part :: rest) ++ tail)
    (hwithin : position ≤ frame.content.length)
    (hthere : frame.content.drop position = AbiValue.tails (part :: rest) ++ after) :
    ∃ next, frame.Shows (AbiValue.heads next rest ++ tail) part ∧
      next ≤ frame.content.length ∧ frame.content.drop next = AbiValue.tails rest ++ after := by
  obtain ⟨content, moved⟩ := part
  cases moved with
  | false =>
      refine ⟨position, .inPlace ?_, hwithin, ?_⟩
      · rw [hnext, ← List.append_assoc]
        rfl
      · rw [hthere, AbiValue.tails_cons_inPlace]
  | true =>
      rw [AbiValue.tails_cons_moved, List.append_assoc] at hthere
      have hlength := congrArg List.length hthere
      rw [List.length_drop, List.length_append] at hlength
      refine ⟨position + content.length, .moved ?_ hwithin hthere, by omega, ?_⟩
      · rw [hnext, ← List.append_assoc]
        rfl
      · rw [← List.drop_drop, hthere, List.drop_left]

end Frame

namespace AbiType

/-- The values of the type are read back wherever they stand as parts of a list, if there is memory
for the items that are copied. -/
def RoundTrips (type : AbiType) : Prop :=
  ∀ (value : AbiValue) (frame : Frame) (tail : Bytes), type.Admits value →
    type.copiedItems value ≤ frame.spare → frame.IsBounded →
      frame.depth + type.frames ≤ Frame.limit →
        frame.Shows tail ⟨value.encode, value.isDynamic⟩ →
          type.read frame = .ok (value,
            { frame with rest := tail, spare := frame.spare - type.copiedItems value })

/-- The items that are still to come are read back if their parts of the tail begin at
`position`. -/
theorem readAll_parts {types : List AbiType} (h : ∀ type ∈ types, type.RoundTrips)
    {values : List AbiValue} {frame : Frame} {position : Nat} {tail after : Bytes}
    (hvalues : AdmitAll types values) (hspare : sumCopiedItems types values ≤ frame.spare)
    (hbounded : frame.IsBounded) (hdepth : frame.depth + mostFrames types ≤ Frame.limit)
    (hnext : frame.rest = AbiValue.heads position (AbiValue.parts values) ++ tail)
    (hwithin : position ≤ frame.content.length)
    (hthere : frame.content.drop position = AbiValue.tails (AbiValue.parts values) ++ after) :
    readAll types frame = .ok (values,
      { frame with rest := tail, spare := frame.spare - sumCopiedItems types values }) := by
  -- every item that is read moves the frame on and the place in the tail as well
  induction types generalizing values frame position with
  | nil =>
      rw [AdmitAll] at hvalues
      subst hvalues
      obtain rfl : frame.rest = tail := hnext
      rfl
  | cons type types ih =>
      rw [AdmitAll] at hvalues
      obtain ⟨value, rest, rfl, hvalue, hrest⟩ := hvalues
      obtain ⟨hfirst, hmore⟩ := List.forall_mem_cons.mp h
      rw [sumCopiedItems] at hspare ⊢
      rw [mostFrames] at hdepth
      obtain ⟨next, hshows, hwithin', hthere'⟩ := Frame.shows_first hnext hwithin hthere
      have hread := hfirst value frame _ hvalue (by omega) hbounded (by omega) hshows
      have hreadAll := @ih hmore rest
        { frame with rest := _, spare := frame.spare - type.copiedItems value } next hrest
        (by simp only; omega) (hbounded.after hshows _) (by simp only; omega) rfl hwithin' hthere'
      rw [readAll]
      show (read type frame >>= _) = _
      rw [hread]
      show (readAll types _ >>= _) = _
      rw [hreadAll, ← Nat.sub_sub]
      rfl

/-- A list that was laid out is read back, up to the end of its head. -/
theorem readAll_layOut {types : List AbiType} (h : ∀ type ∈ types, type.RoundTrips)
    {values : List AbiValue} {frame : Frame} {after : Bytes} {depth spare : Nat}
    (hvalues : AdmitAll types values) (hcopied : sumCopiedItems types values ≤ spare)
    (hspare : spare < storableItemCount) (hdepth : depth + mostFrames types ≤ Frame.limit)
    (hopens : frame.Opens (AbiValue.layOut (AbiValue.parts values)) after depth spare) :
    readAll types frame = .ok (values,
      { frame with
        rest := AbiValue.tails (AbiValue.parts values) ++ after
        spare := spare - sumCopiedItems types values }) := by
  have hhead := AbiValue.length_heads (AbiValue.headSize (AbiValue.parts values))
    (AbiValue.parts values)
  have hcontent := hopens.content
  have hrest := hopens.rest
  have hcountable := hopens.countable
  rw [AbiValue.layOut, List.append_assoc] at hcontent hrest hcountable
  obtain rfl := hopens.spare
  have hbounded : frame.IsBounded := ⟨by rwa [hcontent], by rwa [hrest], hspare⟩
  have hthere : frame.content.drop (AbiValue.headSize (AbiValue.parts values)) =
      AbiValue.tails (AbiValue.parts values) ++ after := by
    rw [hcontent, List.drop_left' hhead]
  refine readAll_parts h hvalues hcopied hbounded ?_ hrest ?_ hthere
  · rw [hopens.depth]
    exact hdepth
  · rw [hcontent, List.length_append, hhead]
    omega

/-- A list of known length is read back, in the tail if one of its items is dynamic. -/
theorem grouped_eq {types : List AbiType} (h : ∀ type ∈ types, type.RoundTrips)
    {values : List AbiValue} {frame : Frame} {tail : Bytes}
    (hvalues : AdmitAll types values) (hcopied : sumCopiedItems types values ≤ frame.spare)
    (hbounded : frame.IsBounded) (hdepth : frame.depth + (1 + mostFrames types) ≤ Frame.limit)
    (hshows : frame.Shows tail ⟨AbiValue.layOut (AbiValue.parts values),
      AbiValue.someDynamic values⟩) :
    Frame.grouped (AbiValue.someDynamic values) (readAll types) frame = .ok (values,
      { frame with rest := tail, spare := frame.spare - sumCopiedItems types values }) := by
  rw [Frame.grouped]
  cases hmoved : AbiValue.someDynamic values with
  | true =>
      rw [hmoved] at hshows
      obtain ⟨opened, after, hopens, helsewhere⟩ :=
        Frame.elsewhere_eq hshows hbounded.content (by omega)
      rw [if_pos rfl, helsewhere,
        readAll_layOut h hvalues hcopied hbounded.spare (by omega) hopens]
      rfl
  | false =>
      rw [hmoved] at hshows
      cases hshows with
      | inPlace hnext =>
          have hread := readAll_layOut h hvalues hcopied hbounded.spare (by omega)
            (Frame.opens_of_eq hnext hbounded.rest (frame.depth + 1) frame.spare)
          rw [if_neg Bool.false_ne_true, Frame.here_eq _ (by omega), hread,
            AbiValue.tails_of_someDynamic hmoved]
          rfl

/-! ## One lemma for each kind of type -/

theorem roundTrips_of_isWord {type : AbiType} (hword : type.isWord = true)
    (hproper : type.isProper = true) : type.RoundTrips := by
  intro value frame tail hvalue _ _ _ hshows
  obtain ⟨word, hencoded⟩ := hvalue.word? hword
  rw [AbiValue.encode_of_word? hencoded, AbiValue.isDynamic_of_word? hencoded] at hshows
  cases hshows with
  | inPlace hnext =>
      rw [read_of_isWord hword, readWord, Frame.word_eq hnext, copiedItems_of_isWord hword]
      show Except.ok (type.ofTopic word, _) = _
      rw [ofTopic_word? hproper hvalue hencoded]
      rfl

theorem roundTrips_bytes : bytes.RoundTrips := by
  intro value frame tail hvalue _ hbounded hdepth hshows
  obtain ⟨content, rfl⟩ := hvalue
  rw [AbiValue.encode] at hshows
  rw [frames] at hdepth
  rw [read]
  show (Frame.packed frame >>= _) = _
  rw [Frame.packed_eq hshows hbounded.content hdepth]
  rfl

theorem roundTrips_string : string.RoundTrips := by
  intro value frame tail hvalue _ hbounded hdepth hshows
  obtain ⟨text, rfl⟩ := hvalue
  rw [AbiValue.encode] at hshows
  rw [frames] at hdepth
  rw [read]
  show (Frame.packed frame >>= _) = _
  rw [Frame.packed_eq hshows hbounded.content hdepth]
  show Except.ok (AbiValue.string (Text.decodeLossy (Text.encode text)), _) = _
  rw [Text.decodeLossy_encode]
  rfl

theorem roundTrips_array {element : AbiType} (h : element.RoundTrips) :
    (array element).RoundTrips := by
  intro value frame tail hvalue hcopied hbounded hdepth hshows
  rw [Admits] at hvalue
  obtain ⟨items, rfl, hitems⟩ := hvalue
  rw [AbiValue.encode] at hshows
  rw [frames] at hdepth
  rw [copiedItems, ← sumCopiedItems_replicate element rfl] at hcopied ⊢
  have hall := admitAll_replicate.mpr ⟨rfl, hitems⟩
  have hleast := le_length_layOut (fun _ _ _ => le_length_encode) hall
  rw [sumLeastWords_replicate, Nat.mul_comm items.length] at hleast
  have hframes := mostFrames_replicate_le element items.length
  have hspare := hbounded.spare
  obtain ⟨opened, after, hopens, hcounted⟩ :=
    Frame.counted_eq hshows hbounded (by omega) hleast (Nat.le_trans (Nat.le_add_right ..) hcopied)
  rw [read]
  show (Frame.counted (leastWords element) (blankItems element) (read element) frame >>= _) = _
  rw [hcounted, times_read, readAll_layOut (List.forall_mem_replicate.mpr (.inr h)) hall
    (by omega) (by omega) (by omega) hopens, ← Nat.sub_sub]
  rfl

theorem roundTrips_fixedArray {element : AbiType} {length : Nat}
    (hsolid : (fixedArray element length).isSolid = true) (h : element.RoundTrips) :
    (fixedArray element length).RoundTrips := by
  intro value frame tail hvalue hcopied hbounded hdepth hshows
  have hmoved := isDynamic_eq hsolid hvalue
  rw [Admits] at hvalue
  obtain ⟨items, rfl, hlength, hitems⟩ := hvalue
  rw [AbiValue.encode, AbiValue.isDynamic] at hshows
  rw [AbiValue.isDynamic, isDynamic] at hmoved
  rw [frames] at hdepth
  rw [copiedItems, ← sumCopiedItems_replicate element hlength] at hcopied ⊢
  have hframes := mostFrames_replicate_le element length
  rw [read]
  show (Frame.grouped (isDynamic element) (Frame.times (read element) length) frame >>= _) = _
  rw [times_read, ← hmoved, grouped_eq (List.forall_mem_replicate.mpr (.inr h))
    (admitAll_replicate.mpr ⟨hlength, hitems⟩) hcopied hbounded (by omega) hshows]
  rfl

theorem roundTrips_tuple {elements : List AbiType} (hsolid : (tuple elements).isSolid = true)
    (h : ∀ element ∈ elements, element.RoundTrips) : (tuple elements).RoundTrips := by
  intro value frame tail hvalue hcopied hbounded hdepth hshows
  have hmoved := isDynamic_eq hsolid hvalue
  rw [Admits] at hvalue
  obtain ⟨items, rfl, hitems⟩ := hvalue
  rw [AbiValue.encode, AbiValue.isDynamic] at hshows
  rw [AbiValue.isDynamic, isDynamic] at hmoved
  rw [frames] at hdepth
  rw [copiedItems] at hcopied ⊢
  rw [read]
  show (Frame.grouped (someDynamic elements) (readAll elements) frame >>= _) = _
  rw [← hmoved, grouped_eq h hitems hcopied hbounded hdepth hshows]
  rfl

/-- Every value of a type without types of no size is read back. -/
theorem roundTrips {type : AbiType} (hsolid : type.isSolid = true)
    (hproper : type.isProper = true) : type.RoundTrips := by
  induction type using wordInduction with
  | word type hword => exact roundTrips_of_isWord hword hproper
  | bytes => exact roundTrips_bytes
  | string => exact roundTrips_string
  | array element ih =>
      exact roundTrips_array (ih (throughout_array hsolid) (throughout_array hproper))
  | fixedArray element length ih =>
      exact roundTrips_fixedArray hsolid
        (ih (throughout_fixedArray hsolid) (throughout_fixedArray hproper))
  | tuple elements ih =>
      exact roundTrips_tuple hsolid fun element hmem =>
        ih element hmem (throughout_tuple hsolid element hmem)
          (throughout_tuple hproper element hmem)

/-! ## The data of an event -/

theorem firstBlankFault?_eq_none {types : List AbiType}
    (h : ∀ type ∈ types, blankItems type ≤ storableItemCount → blankFault? type = none)
    (hitems : sumBlankItems types ≤ storableItemCount) : firstBlankFault? types = none := by
  induction types with
  | nil => rfl
  | cons type rest ih =>
      obtain ⟨hfirst, hmore⟩ := List.forall_mem_cons.mp h
      rw [sumBlankItems] at hitems
      rw [firstBlankFault?, hfirst (by omega), ih hmore (by omega)]
      rfl

/-- If a blank value fits in the memory, so does every list in it. -/
theorem blankFault?_eq_none {type : AbiType} (hsolid : type.isSolid = true)
    (h : blankItems type ≤ storableItemCount) : blankFault? type = none := by
  induction type using wordInduction with
  | word type hword =>
      cases type
      case bool | address | function | uint | int | fixedBytes => rfl
      all_goals cases hword
  | bytes | string => rfl
  | array element ih =>
      rw [blankItems] at h
      exact ih (throughout_array hsolid) (by omega)
  | fixedArray element length ih =>
      rw [blankItems] at h
      have hlength := Nat.pos_of_ne_zero (length_ne_zero_of_isSolid hsolid)
      have hcount := Nat.le_trans (Nat.le_mul_of_pos_right length (by omega)) h
      have hitem := Nat.le_trans (Nat.le_mul_of_pos_left (1 + blankItems element) hlength) h
      rw [blankFault?, ih (throughout_fixedArray hsolid) (by omega),
        Frame.layoutFault?_of_le hcount]
      rfl
  | tuple elements ih =>
      rw [blankItems] at h
      exact firstBlankFault?_eq_none
        (fun type hmem => ih type hmem (throughout_tuple hsolid type hmem)) h

/-- Values are decoded from their encoding if and only if there is memory for them. -/
theorem decodeAll_encodeAll_iff {types : List AbiType} {values : List AbiValue}
    (hsolid : ∀ type ∈ types, type.isSolid = true)
    (hproper : ∀ type ∈ types, type.isProper = true)
    (hdepth : mostFrames types ≤ Frame.limit) (hvalues : AdmitAll types values)
    (hcountable : (AbiValue.encodeAll values).length < sizeCount) :
    decodeAll types (AbiValue.encodeAll values) = .ok values ↔ IsStorable types values := by
  by_cases hnil : types = []
  · subst hnil
    rw [AdmitAll] at hvalues
    subst hvalues
    exact ⟨fun _ => Nat.zero_le _, fun _ => rfl⟩
  · refine ⟨isStorable_of_decodeAll (areEmpty_of_isSolid hnil hsolid), fun hstorable => ?_⟩
    rw [IsStorable] at hstorable
    have hleast := le_length_layOut (fun _ _ _ => le_length_encode) hvalues
    rw [← AbiValue.encodeAll] at hleast
    have hcontent : (AbiValue.encodeAll values) =
        AbiValue.layOut (AbiValue.parts values) ++ [] := by
      rw [List.append_nil]
      rfl
    have hblank : 0 < sumBlankItems types := by
      obtain ⟨first, rest, rfl⟩ := List.exists_cons_of_ne_nil hnil
      rw [sumBlankItems]
      omega
    rw [decodeAll, if_neg (by simp [areEmpty_of_isSolid hnil hsolid]), if_neg (by omega),
      if_neg (by omega), firstBlankFault?_eq_none
        (fun type hmem => blankFault?_eq_none (hsolid type hmem)) (by omega)]
    show (Frame.hold _ _ >>= _) = _
    rw [Frame.hold_eq (show _ ≤ storableItemCount by omega)]
    show (readAll types _ >>= _) = _
    rw [readAll_layOut (fun type hmem => roundTrips (hsolid type hmem) (hproper type hmem))
      hvalues (show _ ≤ storableItemCount - sumBlankItems types by omega) (by omega) (by omega)
      (Frame.opens_of_eq hcontent hcountable 0 _)]
    rfl

/-- A number, a list and a byte string: the head is three words long, the list begins after it and
the byte string three words later. -/
example : AbiValue.encodeAll
      [.uint 0x123 256, .array [.uint 0x456 32, .uint 0x789 32], .bytes [1, 2, 3]] =
    [0x123, 0x60, 0xC0, 2, 0x456, 0x789, 3].flatMap (Bytes.ofNat 32) ++
      ([1, 2, 3] ++ List.replicate 29 0) := by
  decide +kernel

end AbiType

end LogRelay
