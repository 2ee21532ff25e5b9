import Fe2o3Amqp.Serde.Composite
import Fe2o3Amqp.Serde.Decodes

/-!
# Declared sizes

A list, a map, an array and a described list say in front of their contents how long these are and
how many there are.  The deserializer reads as many as there are; apart from the elements of an array,
which must not end behind the declared size, it does not look at how long they are.
-/

namespace Fe2o3Amqp

/-- `deserialize_tuple` with the visitor of a tuple. -/
def De.deserializeTuple {R : Type} [Read R] {α : Type} (elements : List (De R α)) :
    De R (List α) := do
  let count ← match ← getElemCodeOrReadFormatCode "Expecting format code" with
    | .list0 => pure 0
    | .list8 => do
        let size ← next "Expecting size"
        let count ← next "Expecting count"
        let _ ← sub size.toNat 1
        setElemFormatCode none
        pure count.toNat
    | .list32 => do
        let size ← readU32
        let count ← readU32
        let _ ← sub size 4
        setElemFormatCode none
        pure count
    | _ => err .invalidFormatCode
  if count ≠ elements.length then err .sequenceLengthMismatch
  else elements.mapM id

namespace De

variable {α β : Type} {de de' : Deserializer SliceReader}

/-! ## What a run that succeeds has read -/

theorem bind_eq_ok {p : De SliceReader α} {f : α → De SliceReader β} {b : β} :
    (p >>= f) de = .ok b de' ↔ ∃ a de₁, p de = .ok a de₁ ∧ f a de₁ = .ok b de' := by
  rw [bind_run]
  cases p de <;> simp

theorem pure_eq_ok {a b : α} : (pure a : De SliceReader α) de = .ok b de' ↔ a = b ∧ de = de' := by
  simp

theorem next_eq_ok {text : String} {byte : UInt8} (h : next text de = .ok byte de') :
    ∃ rest, de.reader.slice = byte :: rest ∧ de' = de.at rest := by
  obtain ⟨⟨slice, initialLen⟩, nonNativeType, seqType, enumType, structEncoding, elemFormatCode⟩ := de
  cases slice with
  | nil => cases h
  | cons first rest =>
      cases h
      exact ⟨rest, rfl, rfl⟩

theorem readBytes_eq_ok {n : Nat} {bytes : Bytes} (h : readBytes n de = .ok bytes de') :
    n ≤ de.reader.slice.length ∧ bytes = de.reader.slice.take n ∧
      de' = de.at (de.reader.slice.drop n) := by
  simp only [readBytes, read, Read.readExact] at h
  split_ifs at h with hn
  cases h
  exact ⟨hn, rfl, rfl⟩

theorem readU32_eq_ok {n : Nat} (h : readU32 de = .ok n de') :
    4 ≤ de.reader.slice.length ∧ n = BigEndian.decode (de.reader.slice.take 4) ∧
      de' = de.at (de.reader.slice.drop 4) := by
  obtain ⟨bytes, de₁, hbytes, hn⟩ := bind_eq_ok.mp h
  obtain ⟨hlen, rfl, rfl⟩ := readBytes_eq_ok hbytes
  cases hn
  exact ⟨hlen, rfl, rfl⟩

theorem ofExcept_eq_ok {x : Except SerdeError α} {a : α} (h : ofExcept x de = .ok a de') :
    x = .ok a ∧ de' = de := by
  cases x with
  | error e => cases h
  | ok b =>
      cases h
      exact ⟨rfl, rfl⟩

theorem attempt_eq_ok {p : De SliceReader α} {a : α} (h : attempt p de = .ok (.ok a) de') :
    p de = .ok a de' := by
  simp only [attempt] at h
  split at h
  · next hp =>
      cases h
      exact hp
  · cases h
  · cases h

theorem sub_eq_ok {a b c : Nat} (h : sub a b de = .ok c de') : b ≤ a ∧ c = a - b ∧ de' = de := by
  simp only [sub] at h
  split_ifs at h with hlt
  · cases h
  · cases h
    exact ⟨by omega, rfl, rfl⟩

theorem readFormatCode_eq_ok {text : String} {code : EncodingCodes}
    (h : readFormatCode text de = .ok code de') :
    ∃ byte rest, de.reader.slice = byte :: rest ∧ EncodingCodes.tryFrom byte = .ok code ∧
      de' = de.at rest := by
  obtain ⟨byte, de₁, hbyte, hexcept⟩ := bind_eq_ok.mp h
  obtain ⟨rest, hslice, rfl⟩ := next_eq_ok hbyte
  obtain ⟨hcode, rfl⟩ := ofExcept_eq_ok hexcept
  exact ⟨byte, rest, hslice, hcode, rfl⟩

theorem getElemCodeOrReadFormatCode_eq_ok {text : String} {code : EncodingCodes}
    (helem : de.elemFormatCode = none)
    (h : getElemCodeOrReadFormatCode text de = .ok code de') :
    ∃ byte rest, de.reader.slice = byte :: rest ∧ EncodingCodes.tryFrom byte = .ok code ∧
      de' = de.at rest := by
  simp only [getElemCodeOrReadFormatCode, bind_run, get_run, helem] at h
  exact readFormatCode_eq_ok h

/-! ## Descriptors -/

/-- The program leaves the struct encoding and the element constructor as they are, and puts nothing
back. -/
def Keeps (p : De SliceReader α) : Prop :=
  ∀ de a de', p de = .ok a de' → de'.structEncoding = de.structEncoding ∧
    de'.elemFormatCode = de.elemFormatCode ∧ de'.reader.slice.length ≤ de.reader.slice.length

namespace Keeps

theorem pure (a : α) : Keeps (Pure.pure a) := by
  intro de b de' h
  cases h
  exact ⟨rfl, rfl, Nat.le_refl _⟩

theorem bind {p : De SliceReader α} {f : α → De SliceReader β} (h : Keeps p)
    (hrest : ∀ a, Keeps (f a)) : Keeps (p >>= f) := by
  intro de b de' hrun
  obtain ⟨a, de₁, hp, hf⟩ := bind_eq_ok.mp hrun
  obtain ⟨hencoding, hcode, hlength⟩ := h de a de₁ hp
  obtain ⟨hencoding', hcode', hlength'⟩ := hrest a de₁ b de' hf
  exact ⟨hencoding'.trans hencoding, hcode'.trans hcode, hlength'.trans hlength⟩

theorem err (e : SerdeError) : Keeps (De.err e : De SliceReader α) := by
  intro de a de' h
  cases h

theorem get : Keeps (MonadState.get : De SliceReader _) := by
  intro de a de' h
  cases h
  exact ⟨rfl, rfl, Nat.le_refl _⟩

theorem setNonNativeType (nonNativeType : Option NonNativeType) :
    Keeps (De.setNonNativeType nonNativeType : De SliceReader Unit) := by
  intro de a de' h
  cases h
  exact ⟨rfl, rfl, Nat.le_refl _⟩

theorem setEnumType (enumType : EnumType) : Keeps (De.setEnumType enumType : De SliceReader Unit) := by
  intro de a de' h
  cases h
  exact ⟨rfl, rfl, Nat.le_refl _⟩

theorem restoringEnumType {p : De SliceReader α} (h : Keeps p) : Keeps (De.restoringEnumType p) := by
  intro de a de' hrun
  simp only [De.restoringEnumType] at hrun
  split at hrun
  · next a de₁ hp =>
      cases hrun
      exact h de a de₁ hp
  · cases hrun

theorem peek : Keeps (De.peek : De SliceReader _) := by
  intro de a de' h
  cases h
  exact ⟨rfl, rfl, Nat.le_refl _⟩

theorem next (text : String) : Keeps (De.next text) := by
  intro de a de' h
  obtain ⟨rest, hslice, rfl⟩ := next_eq_ok h
  refine ⟨rfl, rfl, ?_⟩
  rw [hslice]
  exact Nat.le_succ _

theorem readBytes (n : Nat) : Keeps (De.readBytes n) := by
  intro de a de' h
  obtain ⟨-, -, rfl⟩ := readBytes_eq_ok h
  refine ⟨rfl, rfl, ?_⟩
  simp only [Deserializer.at, List.length_drop]
  omega

theorem ofExcept (x : Except SerdeError α) : Keeps (De.ofExcept x) := by
  intro de a de' h
  obtain ⟨-, rfl⟩ := ofExcept_eq_ok h
  exact ⟨rfl, rfl, Nat.le_refl _⟩

theorem getElemCodeOrReadFormatCode (text : String) : Keeps (De.getElemCodeOrReadFormatCode text) := by
  refine get.bind fun de => ?_
  cases de.elemFormatCode with
  | some code => exact pure code
  | none => exact (next text).bind fun byte => ofExcept _

theorem stringFromUtf8 (bytes : Bytes) : Keeps (De.stringFromUtf8 bytes) := by
  simp only [De.stringFromUtf8]
  cases fromUtf8 bytes with
  | some text => exact pure text
  | none => exact err _

theorem parseSymbol : Keeps De.parseSymbol := by
  refine (getElemCodeOrReadFormatCode _).bind fun code => ?_
  split
  · exact (next _).bind fun len => (readBytes _).bind fun bytes => stringFromUtf8 _
  · exact ((readBytes 4).bind fun bytes => pure _).bind fun len =>
      (readBytes _).bind fun bytes => stringFromUtf8 _
  · exact err _

theorem parseString : Keeps De.parseString := by
  refine (getElemCodeOrReadFormatCode _).bind fun code => ?_
  split
  · exact (next _).bind fun len => (readBytes _).bind fun bytes => stringFromUtf8 _
  · exact ((readBytes 4).bind fun bytes => pure _).bind fun len =>
      (readBytes _).bind fun bytes => stringFromUtf8 _
  · exact err _

theorem symbol : Keeps De.symbol := by
  refine (setNonNativeType _).bind fun _ => Keeps.bind (get.bind fun de => ?_) fun _ => pure _
  split
  · exact (setNonNativeType _).bind fun _ => parseSymbol
  · exact parseString

theorem parseU64 : Keeps De.parseU64 := by
  refine (getElemCodeOrReadFormatCode _).bind fun code => ?_
  split
  · exact (readBytes 8).bind fun bytes => pure _
  · exact (next _).bind fun byte => pure _
  · exact pure _
  · exact err _

theorem getElemCodeOrPeekByte (text : String) : Keeps (De.getElemCodeOrPeekByte text) := by
  refine get.bind fun de => ?_
  cases de.elemFormatCode with
  | some code => exact pure code.toU8
  | none =>
      refine peek.bind fun byte => ?_
      cases byte with
      | some byte => exact pure byte
      | none => exact err _

end Keeps

/-- A descriptor stands behind the mark of a described type. -/
theorem descriptor_eq_ok {d : Descriptor} (h : descriptor de = .ok d de') :
    (∃ byte rest, de.reader.slice = byte :: rest ∧
        EncodingCodes.tryFrom byte = .ok .describedType) ∧
      de'.structEncoding = de.structEncoding ∧ de'.elemFormatCode = de.elemFormatCode ∧
      de'.reader.slice.length ≤ de.reader.slice.length := by
  simp only [descriptor, deserializeEnum, De.restoringEnumType] at h
  split at h
  · next d de₁ hbody =>
      cases h
      obtain ⟨_, de₂, hset, hbody⟩ := bind_eq_ok.mp hbody
      cases hset
      obtain ⟨isName, de₃, hname, hbody⟩ := bind_eq_ok.mp hbody
      obtain ⟨ident, de₄, hident, hname⟩ := bind_eq_ok.mp hname
      obtain ⟨_, de₅, hget, hident⟩ := bind_eq_ok.mp hident
      cases hget
      obtain ⟨code, de₆, hcode, hident⟩ := bind_eq_ok.mp hident
      obtain ⟨byte, rest, hslice, hbyte, rfl⟩ := readFormatCode_eq_ok hcode
      have hvalue : Keeps (if isName then do return Descriptor.name (← symbol)
          else do return Descriptor.code (← parseU64)) := by
        cases isName with
        | true => exact Keeps.symbol.bind fun _ => .pure _
        | false => exact Keeps.parseU64.bind fun _ => .pure _
      split at hident
      · obtain ⟨_, de₇, hset, hident⟩ := bind_eq_ok.mp hident
        cases hset
        obtain ⟨code', de₈, hpeek, hident⟩ := bind_eq_ok.mp hident
        cases hident
        have hbehind := Keeps.getElemCodeOrPeekByte _ _ _ _ hpeek
        have hsame : de₃ = de₄ := by
          cases htry : EncodingCodes.tryFrom code' with
          | error e =>
              simp only [htry] at hname
              cases hname
          | ok code =>
              simp only [htry] at hname
              cases code <;> cases hname <;> rfl
        subst hsame
        have hread := hvalue _ _ _ hbody
        have hslice' : de.reader.slice = byte :: rest := hslice
        refine ⟨⟨byte, rest, hslice', hbyte⟩, hread.1.trans hbehind.1, hread.2.1.trans hbehind.2.1, ?_⟩
        have hlength := hread.2.2.trans hbehind.2.2
        simp only [Deserializer.at, hslice', List.length_cons] at hlength ⊢
        omega
      · cases hident
  · cases h

end De

/-- A field of a described list, which is absent at the end of the input. -/
def De.presentField {α : Type} (field : De SliceReader α) : De SliceReader Unit := do
  match ← peek with
  | none => return ()
  | some _ => discard field

/-- A field that a derived composite knows. -/
structure KnownField (α : Type) where
  required : Bool
  program : De SliceReader α

def VisitSeq.field {α : Type} (field : KnownField α) : VisitSeq SliceReader (Option α) :=
  if field.required then do return some (← VisitSeq.required field.program)
  else VisitSeq.nextElement field.program

/-- A target type that is read from a compound value, with the programs that read the parts. -/
inductive Compound (α β : Type) where
  | vec (element : De SliceReader α)
  | tuple (elements : List (De SliceReader α))
  | map (eq : α → α → Bool) (key : De SliceReader α) (value : De SliceReader β)
  | composite (name : String) (code : UInt64) (fields : List (KnownField α))

/-- The header of a compound value, with the deserializer behind it. -/
structure Opened where
  code : EncodingCodes
  /-- The length of the constructor, which is a format code behind a descriptor, if there is one. -/
  constructorLength : Nat
  sizeWidth : Nat
  size : Nat
  count : Nat
  /-- What the size counts in front of the first item: the count and the element constructor. -/
  inside : Nat
  start : Deserializer SliceReader
deriving DecidableEq

namespace Opened

/-- The header in front of a deserializer, behind a descriptor of `front` bytes. -/
def parse (front : Nat) (de : Deserializer SliceReader) : Option Opened :=
  match de.reader.slice with
  | [] => none
  | byte :: rest =>
      match EncodingCodes.tryFrom byte with
      | .error _ => none
      | .ok code =>
          let sized (width : Nat) : Option Opened :=
            if rest.length < 2 * width then none
            else some
              { code
                constructorLength := front + 1
                sizeWidth := width
                size := BigEndian.decode (rest.take width)
                count := BigEndian.decode ((rest.drop width).take width)
                inside := width
                start := de.at (rest.drop (2 * width)) }
          match code with
          | .list0 =>
              some
                { code, constructorLength := front + 1, sizeWidth := 0, size := 0, count := 0
                  inside := 0, start := de.at rest }
          | .list8 | .map8 | .array8 => sized 1
          | .list32 | .map32 | .array32 => sized 4
          | _ => none

/-- An array that is not empty has the constructor of its elements behind the count. -/
def enterArray (opened : Opened) : Option Opened :=
  match opened.start.reader.slice with
  | [] => none
  | byte :: rest =>
      match EncodingCodes.tryFrom byte with
      | .error _ => none
      | .ok code =>
          some { opened with
            inside := opened.inside + 1
            start := { opened.start with elemFormatCode := some code }.at rest }

end Opened

namespace Compound

variable {α β : Type}

def decode : Compound α β → De SliceReader Unit
  | .vec element => do let _ ← De.deserializeVec element
  | .tuple elements => do let _ ← De.deserializeTuple elements
  | .map eq key value => do let _ ← De.deserializeMap eq key value
  | .composite name code fields => do
      let _ ← De.composite name code (fields.mapM VisitSeq.field)

/-- The header of a list, or of an array with the constructor of its elements. -/
def openedSeq (de : Deserializer SliceReader) : Option Opened := do
  let opened ← Opened.parse 0 de
  if (opened.code = .array8 ∨ opened.code = .array32) ∧ opened.count ≠ 0 then opened.enterArray
  else return opened

/-- The header that the deserializer has in front of it. -/
def opened : Compound α β → Deserializer SliceReader → Option Opened
  | .vec _, de => openedSeq de
  | .tuple _, de | .map _ _ _, de => Opened.parse 0 de
  | .composite _ _ _, de =>
      match De.descriptor { de with structEncoding := .describedList } with
      | .ok _ de' => Opened.parse (de.reader.slice.length - de'.reader.slice.length) de'
      | .error _ _ => none

/-- The programs that read the parts, one after another, if there are `count` of them. -/
def parts : Compound α β → (count : Nat) → List (De SliceReader Unit)
  | .vec element, count => List.replicate count (discard element)
  | .tuple elements, _ => elements.map discard
  | .map _ key value, count => (List.replicate (count / 2) [discard key, discard value]).flatten
  | .composite _ _ fields, count => (fields.take count).map fun field => De.presentField field.program

end Compound

def runAll : List (De SliceReader Unit) → De SliceReader Unit
  | [] => pure ()
  | part :: parts => do
      part
      runAll parts

namespace Compound

variable {α β : Type}

/-- If the value is accepted, what has been taken is the constructor, the size field and as many
bytes as the size says. -/
def ConsumesDeclared (target : Compound α β) (de : Deserializer SliceReader) : Prop :=
  ∀ stop, target.decode de = .ok () stop →
    ∃ opened, target.opened de = some opened ∧
      de.reader.slice.length =
        opened.constructorLength + opened.sizeWidth + opened.size + stop.reader.slice.length

/-- The size is that of the count, of the element constructor of an array that is not empty, and of
the parts: as many as the count says and the type knows. -/
def SizeFits (target : Compound α β) (de : Deserializer SliceReader) : Prop :=
  ∃ opened stop, target.opened de = some opened ∧
    runAll (target.parts opened.count) opened.start = .ok () stop ∧
    opened.inside + opened.start.reader.slice.length = opened.size + stop.reader.slice.length

end Compound

/-! ## Headers -/

namespace Opened

variable {de de₁ de₂ : Deserializer SliceReader} {byte : UInt8} {rest : Bytes} {code : EncodingCodes}

theorem parse_list0 (front : Nat) (hslice : de.reader.slice = byte :: rest)
    (hcode : EncodingCodes.tryFrom byte = .ok .list0) :
    parse front de = some
      { code := .list0, constructorLength := front + 1, sizeWidth := 0, size := 0, count := 0
        inside := 0, start := de.at rest } := by
  simp only [parse, hslice, hcode]

theorem parse_narrow (front : Nat) {size count : UInt8}
    (hslice : de.reader.slice = byte :: size :: count :: rest)
    (hcode : EncodingCodes.tryFrom byte = .ok code)
    (hnarrow : code = .list8 ∨ code = .map8 ∨ code = .array8) :
    parse front de = some
      { code, constructorLength := front + 1, sizeWidth := 1, size := size.toNat
        count := count.toNat, inside := 1, start := de.at rest } := by
  have hlength : ¬(size :: count :: rest).length < 2 * 1 := by
    simp only [List.length_cons]
    omega
  simp only [parse, hslice, hcode, hlength, if_false]
  obtain rfl | rfl | rfl := hnarrow <;> simp [BigEndian.decode]

theorem parse_wide (front : Nat) {size count : Nat} (hslice : de.reader.slice = byte :: rest)
    (hcode : EncodingCodes.tryFrom byte = .ok code)
    (hwide : code = .list32 ∨ code = .map32 ∨ code = .array32)
    (hsize : De.readU32 (de.at rest) = .ok size de₁) (hcount : De.readU32 de₁ = .ok count de₂) :
    parse front de = some
      { code, constructorLength := front + 1, sizeWidth := 4, size, count, inside := 4
        start := de₂ } := by
  obtain ⟨hlen, rfl, rfl⟩ := De.readU32_eq_ok hsize
  obtain ⟨hlen', rfl, rfl⟩ := De.readU32_eq_ok hcount
  have hlength : ¬rest.length < 2 * 4 := by
    simp only [Deserializer.at, List.length_drop] at hlen hlen'
    omega
  simp only [parse, hslice, hcode, hlength, if_false]
  obtain rfl | rfl | rfl := hwide <;> simp [Deserializer.at]

/-- What stands in front of the items is the constructor, the size field and the part of the declared
size that is no item. -/
theorem length_parse {front : Nat} {opened : Opened} (h : parse front de = some opened) :
    front + de.reader.slice.length = opened.constructorLength + opened.sizeWidth + opened.inside +
      opened.start.reader.slice.length := by
  have hsized (rest : Bytes) (width : Nat) (hwidth : ¬rest.length < 2 * width) :
      front + (rest.length + 1) = front + 1 + width + width + (rest.drop (2 * width)).length := by
    rw [List.length_drop]
    omega
  simp only [parse] at h
  split at h
  · cases h
  · next byte rest hslice =>
      simp only [hslice, List.length_cons]
      split at h
      · cases h
      · split at h
        · cases h
          simp only [Deserializer.at]
          omega
        all_goals
          first
          | split_ifs at h with hwidth
            cases h
            exact hsized rest _ hwidth
          | cases h

theorem length_enterArray {opened inner : Opened} (h : opened.enterArray = some inner) :
    inner.constructorLength = opened.constructorLength ∧ inner.sizeWidth = opened.sizeWidth ∧
      inner.size = opened.size ∧ inner.count = opened.count ∧
      inner.inside + inner.start.reader.slice.length =
        opened.inside + opened.start.reader.slice.length := by
  simp only [enterArray] at h
  split at h
  · cases h
  · next byte rest hslice =>
      split at h
      · cases h
      · cases h
        simp only [hslice, List.length_cons, Deserializer.at, true_and]
        omega

end Opened

/-! ## Parts -/

section Parts

variable {α β : Type} {de de' : Deserializer SliceReader}

theorem discard_eq_ok {p : De SliceReader α} {a : α} (h : p de = .ok a de') :
    (discard p : De SliceReader Unit) de = .ok () de' := by
  simp only [discard, Functor.discard, Functor.mapConst, Function.comp_apply, EStateM.map, h]

theorem runAll_append (parts parts' : List (De SliceReader Unit)) :
    runAll (parts ++ parts') = (do runAll parts; runAll parts') := by
  induction parts with
  | nil => simp [runAll]
  | cons part parts ih => simp only [List.cons_append, runAll, ih, bind_assoc]

theorem runAll_listElements {element : De SliceReader α} {count : Nat} {vs : List α}
    (h : De.listElements element count de = .ok vs de') :
    runAll (List.replicate count (discard element)) de = .ok () de' := by
  induction count generalizing de vs with
  | zero =>
      cases h
      rfl
  | succ count ih =>
      obtain ⟨v, de₁, hv, h⟩ := De.bind_eq_ok.mp h
      obtain ⟨vs, de₂, hvs, h⟩ := De.bind_eq_ok.mp h
      cases h
      rw [List.replicate_succ, runAll, De.bind_run, discard_eq_ok hv]
      exact ih hvs

/-- The elements of an array, whose constructor is dropped behind the last one. -/
theorem runAll_arrayElements {element : De SliceReader α} {size startPos count : Nat} {vs : List α}
    (h : De.arrayElements element size startPos count de = .ok vs de') :
    ∃ stop, runAll (List.replicate count (discard element)) de = .ok () stop ∧
      stop.reader = de'.reader := by
  induction count generalizing de vs with
  | zero =>
      cases h
      exact ⟨de, rfl, rfl⟩
  | succ count ih =>
      obtain ⟨v, de₁, hv, h⟩ := De.bind_eq_ok.mp h
      obtain ⟨consumed, de₂, hconsumed, h⟩ := De.bind_eq_ok.mp h
      cases hconsumed
      split_ifs at h with hsize
      · cases h
      · obtain ⟨vs, de₃, hvs, h⟩ := De.bind_eq_ok.mp h
        cases h
        rw [List.replicate_succ, runAll, De.bind_run, discard_eq_ok hv]
        exact ih hvs

theorem runAll_elements {elements : List (De SliceReader α)} {vs : List α}
    (h : elements.mapM id de = .ok vs de') : runAll (elements.map discard) de = .ok () de' := by
  induction elements generalizing de vs with
  | nil =>
      cases h
      rfl
  | cons element elements ih =>
      rw [List.mapM_cons] at h
      obtain ⟨v, de₁, hv, h⟩ := De.bind_eq_ok.mp h
      obtain ⟨vs, de₂, hvs, h⟩ := De.bind_eq_ok.mp h
      cases h
      have hdiscard : discard element de = .ok () de₁ := discard_eq_ok hv
      rw [List.map_cons, runAll, De.bind_run, hdiscard]
      exact ih hvs

/-- The entries of a map; an odd count is not accepted. -/
theorem runAll_mapEntries {eq : α → α → Bool} {key : De SliceReader α} {value : De SliceReader β}
    (count : Nat) {entries entries' : OrderedMap α β}
    (h : De.mapEntries eq key value count entries de = .ok entries' de') :
    runAll (List.replicate (count / 2) [discard key, discard value]).flatten de = .ok () de' := by
  induction count using Nat.twoStepInduction generalizing de entries with
  | zero =>
      cases h
      rfl
  | one => cases h
  | more count ih _ =>
      obtain ⟨k, de₁, hk, h⟩ := De.bind_eq_ok.mp h
      obtain ⟨v, de₂, hv, h⟩ := De.bind_eq_ok.mp h
      have hhalf : (count + 2) / 2 = count / 2 + 1 := by omega
      rw [hhalf, List.replicate_succ, List.flatten_cons, runAll_append]
      simp only [runAll, De.bind_run, discard_eq_ok hk, discard_eq_ok hv]
      exact ih h

theorem peek_eq (de : Deserializer SliceReader) : De.peek de = .ok de.reader.slice.head? de := rfl

theorem runAll_presentField_end (hend : de.reader.slice = []) (fields : List (KnownField α)) :
    runAll (fields.map fun field => De.presentField field.program) de = .ok () de := by
  induction fields with
  | nil => rfl
  | cons field fields ih =>
      have hfield : De.presentField field.program de = .ok () de := by
        simp only [De.presentField, De.bind_run, peek_eq, hend, List.head?_nil, De.pure_run]
      rw [List.map_cons, runAll, De.bind_run, hfield]
      exact ih

/-- A field behind the descriptor is absent, or its program reads it. -/
theorem nextElement_eq_ok {element : De SliceReader α} {access access' : De.DescribedAccess}
    {v : Option α} (hcounter : access.counter ≠ 0)
    (h : access.nextElement element de = .ok (v, access') de') :
    (access' = access ∧ de' = de ∧
        (access.fieldCount ≤ access.counter ∨ de.reader.slice = [])) ∨
      (access.counter < access.fieldCount ∧ access'.counter = access.counter + 1 ∧
        access'.fieldCount = access.fieldCount ∧
        De.presentField element de = .ok () de') := by
  simp only [De.DescribedAccess.nextElement] at h
  split_ifs at h with hfull
  · cases h
    exact .inl ⟨rfl, rfl, .inl hfull⟩
  · simp only [De.bind_run, peek_eq] at h
    cases hslice : de.reader.slice with
    | nil =>
        simp only [hslice, List.head?_nil, De.pure_run] at h
        cases h
        exact .inl ⟨rfl, rfl, .inr rfl⟩
    | cons byte rest =>
        right
        have hread {v : α} {de₁ : Deserializer SliceReader} (hv : element de = .ok v de₁) :
            De.presentField element de = .ok () de₁ := by
          simp only [De.presentField, De.bind_run, peek_eq, hslice, List.head?_cons]
          exact discard_eq_ok hv
        have hlt : access.counter < access.fieldCount := by
          simpa using hfull
        simp only [hslice, List.head?_cons] at h
        obtain ⟨code, de₁, hcode, hbody⟩ := De.bind_eq_ok.mp h
        obtain ⟨-, rfl⟩ := De.ofExcept_eq_ok hcode
        split at hbody
        · obtain ⟨result, de₂, hresult, hbody⟩ := De.bind_eq_ok.mp hbody
          obtain ⟨announced, de₃, hannounced, hbody⟩ := De.bind_eq_ok.mp hbody
          simp only [De.DescribedAccess.announce, hcounter, false_and, if_false] at hannounced
          obtain ⟨rfl, rfl⟩ := De.pure_eq_ok.mp hannounced
          obtain ⟨v, de₄, hv, hbody⟩ := De.bind_eq_ok.mp hbody
          obtain ⟨rfl, rfl⟩ := De.ofExcept_eq_ok hv
          cases hbody
          exact ⟨hlt, rfl, rfl, hread (De.attempt_eq_ok hresult)⟩
        · obtain ⟨v, de₂, hv, hbody⟩ := De.bind_eq_ok.mp hbody
          cases hbody
          exact ⟨hlt, rfl, rfl, hread hv⟩

/-- A field that is required is read as one that is not. -/
theorem field_eq_ok {field : KnownField α} {access access' : De.DescribedAccess} {v : Option α}
    (h : VisitSeq.field field access de = .ok (v, access') de') :
    ∃ v', access.nextElement field.program de = .ok (v', access') de' := by
  simp only [VisitSeq.field] at h
  split_ifs at h with hrequired
  · obtain ⟨⟨v₁, access₁⟩, de₁, hread, hvalue⟩ := De.bind_eq_ok.mp h
    cases hvalue
    obtain ⟨⟨v₂, access₂⟩, de₂, hnext, hsome⟩ := De.bind_eq_ok.mp hread
    cases v₂ with
    | none => cases hsome
    | some v₂ =>
        cases hsome
        exact ⟨_, hnext⟩
  · exact ⟨v, h⟩

/-- The fields of a described list: as many as were announced, of those that the type knows. -/
theorem runAll_fields {fields : List (KnownField α)} {access access' : De.DescribedAccess}
    {vs : List (Option α)} (hcounter : access.counter ≠ 0)
    (hle : access.counter ≤ access.fieldCount)
    (h : fields.mapM VisitSeq.field access de = .ok (vs, access') de') :
    runAll ((fields.take (access.fieldCount.toNat - access.counter.toNat)).map
      fun field => De.presentField field.program) de = .ok () de' := by
  induction fields generalizing de vs access with
  | nil =>
      cases h
      simp only [List.take_nil, List.map_nil]
      rfl
  | cons field fields ih =>
      rw [List.mapM_cons] at h
      obtain ⟨⟨v, access₁⟩, de₁, hv, h⟩ := De.bind_eq_ok.mp h
      obtain ⟨⟨vs, access₂⟩, de₂, hvs, h⟩ := De.bind_eq_ok.mp h
      cases h
      obtain ⟨v', hv'⟩ := field_eq_ok hv
      obtain ⟨rfl, rfl, hend⟩ | ⟨hlt, hcounter', hcount', hfield⟩ := nextElement_eq_ok hcounter hv'
      · have hrest := ih hcounter hle hvs
        have hnothing (fields : List (KnownField α)) :
            runAll ((fields.take (access₁.fieldCount.toNat - access₁.counter.toNat)).map
              fun field => De.presentField field.program) de₁ = .ok () de₁ := by
          obtain hfull | hend := hend
          · have hzero : access₁.fieldCount.toNat - access₁.counter.toNat = 0 :=
              Nat.sub_eq_zero_of_le (UInt32.le_iff_toNat_le.mp hfull)
            rw [hzero, List.take_zero]
            rfl
          · exact runAll_presentField_end hend _
        rw [hnothing] at hrest ⊢
        exact hrest
      · have hlt' := UInt32.lt_iff_toNat_lt.mp hlt
        have hsucc : access₁.counter.toNat = access.counter.toNat + 1 := by
          have hbound := access.fieldCount.toNat_lt
          rw [hcounter', UInt32.toNat_add]
          simp only [UInt32.toNat_one]
          omega
        have hleft : access.fieldCount.toNat - access.counter.toNat =
            access₁.fieldCount.toNat - access₁.counter.toNat + 1 := by
          rw [hcount', hsucc]
          omega
        have hcounter₁ : access₁.counter ≠ 0 := by
          intro hzero
          rw [hzero] at hsucc
          simp at hsucc
        have hle₁ : access₁.counter ≤ access₁.fieldCount := by
          rw [UInt32.le_iff_toNat_le, hcount', hsucc]
          omega
        rw [hleft, List.take_succ_cons, List.map_cons, runAll, De.bind_run, hfield]
        exact ih hcounter₁ hle₁ hvs

end Parts

namespace Compound

variable {α β : Type} {de de' : Deserializer SliceReader}

theorem arrayAccess_eq_ok {offset len count : Nat} {access : De.SeqAccess}
    (h : De.arrayAccess offset len count de = .ok access de') :
    ∃ size pos, access = .array size count pos ∧ (count = 0 ∧ de' = de ∨
      count ≠ 0 ∧ ∃ byte rest code, de.reader.slice = byte :: rest ∧
        EncodingCodes.tryFrom byte = .ok code ∧ de' = { de with elemFormatCode := some code }.at rest) := by
  simp only [De.arrayAccess] at h
  split_ifs at h with hcap hzero
  · cases h
  · obtain ⟨pos, de₁, hpos, h⟩ := De.bind_eq_ok.mp h
    cases hpos
    cases h
    subst hzero
    exact ⟨len, _, rfl, .inl ⟨rfl, rfl⟩⟩
  · obtain ⟨code, de₁, hcode, h⟩ := De.bind_eq_ok.mp h
    obtain ⟨byte, rest, hslice, hbyte, rfl⟩ := De.readFormatCode_eq_ok hcode
    obtain ⟨_, de₂, hset, h⟩ := De.bind_eq_ok.mp h
    cases hset
    obtain ⟨size, de₃, hsize, h⟩ := De.bind_eq_ok.mp h
    obtain ⟨-, -, rfl⟩ := De.sub_eq_ok hsize
    obtain ⟨pos, de₄, hpos, h⟩ := De.bind_eq_ok.mp h
    cases hpos
    cases h
    exact ⟨size, _, rfl, .inr ⟨hzero, byte, rest, code, hslice, hbyte, rfl⟩⟩

theorem openedSeq_of_parse {opened : Opened} (h : Opened.parse 0 de = some opened)
    (hplain : opened.code = .array8 ∨ opened.code = .array32 → opened.count = 0) :
    openedSeq de = some opened := by
  have harray : ¬((opened.code = .array8 ∨ opened.code = .array32) ∧ opened.count ≠ 0) :=
    fun ⟨harray, hcount⟩ => hcount (hplain harray)
  simp only [openedSeq, h, Option.bind_eq_bind, Option.bind_some, harray, if_false]
  rfl

theorem openedSeq_of_enter {opened inner : Opened} (h : Opened.parse 0 de = some opened)
    (harray : opened.code = .array8 ∨ opened.code = .array32) (hcount : opened.count ≠ 0)
    (hinner : opened.enterArray = some inner) : openedSeq de = some inner := by
  simp only [openedSeq, h, Option.bind_eq_bind, Option.bind_some, harray, hcount, ne_eq,
    not_false_eq_true, and_self, if_true, hinner]

/-- An array and its element constructor. -/
theorem openedSeq_array {opened : Opened} {offset len : Nat} {access : De.SeqAccess}
    (hparse : Opened.parse 0 de = some opened)
    (harray : opened.code = .array8 ∨ opened.code = .array32)
    (h : De.arrayAccess offset len opened.count opened.start = .ok access de') :
    ∃ opened, openedSeq de = some opened ∧ opened.start = de' ∧
      (access = .list opened.count ∨ ∃ size pos, access = .array size opened.count pos) := by
  obtain ⟨size, pos, rfl, ⟨hcount, rfl⟩ | ⟨hcount, byte, rest, code, hslice, hbyte, rfl⟩⟩ :=
    arrayAccess_eq_ok h
  · exact ⟨opened, openedSeq_of_parse hparse fun _ => hcount, rfl, .inr ⟨size, pos, rfl⟩⟩
  · have hinner : opened.enterArray = some { opened with
        inside := opened.inside + 1
        start := { opened.start with elemFormatCode := some code }.at rest } := by
      simp only [Opened.enterArray, hslice, hbyte]
    exact ⟨_, openedSeq_of_enter hparse harray hcount hinner, rfl, .inr ⟨size, pos, rfl⟩⟩

/-- The header in front of the elements of a sequence. -/
theorem seqAccess_eq_ok {access : De.SeqAccess} (helem : de.elemFormatCode = none)
    (h : De.seqAccess de = .ok access de') :
    ∃ opened, openedSeq de = some opened ∧ opened.start = de' ∧
      (access = .list opened.count ∨ ∃ size pos, access = .array size opened.count pos) := by
  obtain ⟨code, de₁, hcode, h⟩ := De.bind_eq_ok.mp h
  obtain ⟨byte, rest, hslice, hbyte, rfl⟩ := De.getElemCodeOrReadFormatCode_eq_ok helem hcode
  have hclear (rest : Bytes) : { de.at rest with elemFormatCode := none } = de.at rest :=
    Deserializer.elemFormatCode_none helem
  cases code
  case list0 =>
    cases h
    have hparse := Opened.parse_list0 0 hslice hbyte
    exact ⟨_, openedSeq_of_parse hparse (by simp), rfl, .inl rfl⟩
  case list8 | array8 =>
    obtain ⟨size, de₂, hsize, h⟩ := De.bind_eq_ok.mp h
    obtain ⟨rest, hrest, rfl⟩ := De.next_eq_ok hsize
    obtain ⟨count, de₃, hcount, h⟩ := De.bind_eq_ok.mp h
    obtain ⟨rest', hrest', rfl⟩ := De.next_eq_ok hcount
    simp only [Deserializer.at] at hrest hrest'
    subst hrest hrest'
    have hparse := Opened.parse_narrow 0 hslice hbyte (by simp)
    first
    | exact openedSeq_array hparse (.inl rfl) h
    | obtain ⟨_, de₄, hsub, h⟩ := De.bind_eq_ok.mp h
      obtain ⟨-, -, rfl⟩ := De.sub_eq_ok hsub
      cases h
      exact ⟨_, openedSeq_of_parse hparse (by simp), (hclear rest').symm, .inl rfl⟩
  case list32 | array32 =>
    obtain ⟨size, de₂, hsize, h⟩ := De.bind_eq_ok.mp h
    obtain ⟨count, de₃, hcount, h⟩ := De.bind_eq_ok.mp h
    have hparse := Opened.parse_wide 0 hslice hbyte (by simp) hsize hcount
    first
    | exact openedSeq_array hparse (.inr rfl) h
    | split_ifs at h with hcap
      · cases h
      · obtain ⟨_, de₄, hsub, hlast⟩ := De.bind_eq_ok.mp h
        obtain ⟨-, -, rfl⟩ := De.sub_eq_ok hsub
        obtain ⟨-, -, rfl⟩ := De.readU32_eq_ok hsize
        obtain ⟨-, -, rfl⟩ := De.readU32_eq_ok hcount
        cases hlast
        exact ⟨_, openedSeq_of_parse hparse (by simp), (hclear _).symm, .inl rfl⟩
  all_goals cases h

theorem mapCount_eq_ok {count : Nat} (helem : de.elemFormatCode = none)
    (h : De.mapCount de = .ok count de') :
    ∃ opened, Opened.parse 0 de = some opened ∧ opened.start = de' ∧ opened.count = count := by
  obtain ⟨code, de₁, hcode, h⟩ := De.bind_eq_ok.mp h
  obtain ⟨byte, rest, hslice, hbyte, rfl⟩ := De.getElemCodeOrReadFormatCode_eq_ok helem hcode
  cases code
  case map8 =>
    obtain ⟨size, de₂, hsize, h⟩ := De.bind_eq_ok.mp h
    obtain ⟨rest, hrest, rfl⟩ := De.next_eq_ok hsize
    obtain ⟨count, de₃, hcount, h⟩ := De.bind_eq_ok.mp h
    obtain ⟨rest', hrest', rfl⟩ := De.next_eq_ok hcount
    obtain ⟨_, de₄, hsub, h⟩ := De.bind_eq_ok.mp h
    obtain ⟨-, -, rfl⟩ := De.sub_eq_ok hsub
    cases h
    simp only [Deserializer.at] at hrest hrest'
    subst hrest hrest'
    exact ⟨_, Opened.parse_narrow 0 hslice hbyte (by simp), rfl, rfl⟩
  case map32 =>
    obtain ⟨size, de₂, hsize, h⟩ := De.bind_eq_ok.mp h
    obtain ⟨count, de₃, hcount, h⟩ := De.bind_eq_ok.mp h
    have hparse := Opened.parse_wide 0 hslice hbyte (by simp) hsize hcount
    split_ifs at h with hcap
    · cases h
    · obtain ⟨_, de₄, hsub, hlast⟩ := De.bind_eq_ok.mp h
      obtain ⟨-, -, rfl⟩ := De.sub_eq_ok hsub
      cases hlast
      exact ⟨_, hparse, rfl, rfl⟩
  all_goals cases h

theorem consumeListHeader_eq_ok {count : UInt32} (front : Nat) (helem : de.elemFormatCode = none)
    (h : De.consumeListHeader de = .ok count de') :
    ∃ opened, Opened.parse front de = some opened ∧ opened.start = de' ∧
      opened.count = count.toNat := by
  obtain ⟨code, de₁, hcode, h⟩ := De.bind_eq_ok.mp h
  obtain ⟨byte, rest, hslice, hbyte, rfl⟩ := De.getElemCodeOrReadFormatCode_eq_ok helem hcode
  cases code
  case list0 =>
    cases h
    exact ⟨_, Opened.parse_list0 front hslice hbyte, rfl, rfl⟩
  case list8 =>
    obtain ⟨size, de₂, hsize, h⟩ := De.bind_eq_ok.mp h
    obtain ⟨rest, hrest, rfl⟩ := De.next_eq_ok hsize
    obtain ⟨count, de₃, hcount, h⟩ := De.bind_eq_ok.mp h
    obtain ⟨rest', hrest', rfl⟩ := De.next_eq_ok hcount
    cases h
    simp only [Deserializer.at] at hrest hrest'
    subst hrest hrest'
    exact ⟨_, Opened.parse_narrow front hslice hbyte (by simp), rfl, by simp⟩
  case list32 =>
    obtain ⟨size, de₂, hsize, h⟩ := De.bind_eq_ok.mp h
    obtain ⟨count, de₃, hcount, h⟩ := De.bind_eq_ok.mp h
    cases h
    have hlt : count < 2 ^ 32 := by
      obtain ⟨hlen, rfl, -⟩ := De.readU32_eq_ok hcount
      have hdecode := BigEndian.decode_lt (de₂.reader.slice.take 4)
      rw [List.length_take, Nat.min_eq_left hlen] at hdecode
      exact hdecode
    exact ⟨_, Opened.parse_wide front hslice hbyte (by simp) hsize hcount, rfl,
      (UInt32.toNat_ofNat_of_lt' hlt).symm⟩
  all_goals cases h

theorem deserializeTuple_eq_ok {elements : List (De SliceReader α)} {vs : List α}
    (helem : de.elemFormatCode = none) (h : De.deserializeTuple elements de = .ok vs de') :
    ∃ opened, Opened.parse 0 de = some opened ∧ elements.mapM id opened.start = .ok vs de' := by
  obtain ⟨code, de₁, hcode, h⟩ := De.bind_eq_ok.mp h
  obtain ⟨byte, rest, hslice, hbyte, rfl⟩ := De.getElemCodeOrReadFormatCode_eq_ok helem hcode
  have hclear (rest : Bytes) : { de.at rest with elemFormatCode := none } = de.at rest :=
    Deserializer.elemFormatCode_none helem
  have helements {opened : Opened} {count : Nat} {start : Deserializer SliceReader}
      (hparse : Opened.parse 0 de = some opened) (hstart : opened.start = start)
      (h : (if count ≠ elements.length then De.err .sequenceLengthMismatch
        else elements.mapM id : De SliceReader _) start = .ok vs de') :
      ∃ opened, Opened.parse 0 de = some opened ∧ elements.mapM id opened.start = .ok vs de' := by
    split_ifs at h with hcount
    · cases h
    · exact ⟨opened, hparse, by rw [hstart]; exact h⟩
  cases code
  case list0 => exact helements (Opened.parse_list0 0 hslice hbyte) rfl h
  case list8 =>
    obtain ⟨size, de₂, hsize, h⟩ := De.bind_eq_ok.mp h
    obtain ⟨rest, hrest, rfl⟩ := De.next_eq_ok hsize
    obtain ⟨count, de₃, hcount, h⟩ := De.bind_eq_ok.mp h
    obtain ⟨rest', hrest', rfl⟩ := De.next_eq_ok hcount
    obtain ⟨_, de₄, hsub, hlast⟩ := De.bind_eq_ok.mp h
    obtain ⟨-, -, rfl⟩ := De.sub_eq_ok hsub
    simp only [Deserializer.at] at hrest hrest'
    subst hrest hrest'
    exact helements (Opened.parse_narrow 0 hslice hbyte (by simp)) (hclear rest').symm hlast
  case list32 =>
    obtain ⟨size, de₂, hsize, h⟩ := De.bind_eq_ok.mp h
    obtain ⟨count, de₃, hcount, h⟩ := De.bind_eq_ok.mp h
    have hparse := Opened.parse_wide 0 hslice hbyte (by simp) hsize hcount
    obtain ⟨_, de₄, hsub, hlast⟩ := De.bind_eq_ok.mp h
    obtain ⟨-, -, rfl⟩ := De.sub_eq_ok hsub
    obtain ⟨-, -, rfl⟩ := De.readU32_eq_ok hsize
    obtain ⟨-, -, rfl⟩ := De.readU32_eq_ok hcount
    exact helements hparse (hclear _).symm hlast
  all_goals cases h

/-- The first element, which is the descriptor; the header of the list is read behind it. -/
theorem nextElement_descriptor_eq_ok {access : De.DescribedAccess} {d : Option Descriptor}
    (hencoding : de.structEncoding = .describedList)
    (h : De.DescribedAccess.nextElement De.descriptor ⟨0, 1⟩ de = .ok (d, access) de') :
    (d = none ∧ access = ⟨0, 1⟩) ∨
      ∃ v de₁ count, d = some v ∧ De.descriptor de = .ok v de₁ ∧
        De.consumeListHeader de₁ = .ok count de' ∧ access.counter = 1 ∧
        access.fieldCount.toNat = 1 + count.toNat := by
  have hfree : ¬(0 : UInt32) ≥ 1 := by decide
  simp only [De.DescribedAccess.nextElement, hfree, if_false, De.bind_run, peek_eq] at h
  cases hslice : de.reader.slice with
  | nil =>
      simp only [hslice, List.head?_nil, De.pure_run] at h
      cases h
      exact .inl ⟨rfl, rfl⟩
  | cons byte rest =>
      right
      simp only [hslice, List.head?_cons] at h
      obtain ⟨mark, de₁, hmark, hbody⟩ := De.bind_eq_ok.mp h
      obtain ⟨hbyte, rfl⟩ := De.ofExcept_eq_ok hmark
      split at hbody
      · obtain ⟨result, de₂, hresult, hbody⟩ := De.bind_eq_ok.mp hbody
        obtain ⟨announced, de₃, hannounced, hbody⟩ := De.bind_eq_ok.mp hbody
        obtain ⟨v, de₄, hv, hbody⟩ := De.bind_eq_ok.mp hbody
        obtain ⟨rfl, rfl⟩ := De.ofExcept_eq_ok hv
        have hdescriptor := De.attempt_eq_ok hresult
        cases hbody
        obtain ⟨-, hencoding', -, -⟩ := De.descriptor_eq_ok hdescriptor
        obtain ⟨_, de₂', hget, hannounced⟩ := De.bind_eq_ok.mp hannounced
        cases hget
        simp only [hencoding'.trans hencoding, and_self, if_true] at hannounced
        obtain ⟨count, de₃, hcount, hsum⟩ := De.bind_eq_ok.mp hannounced
        split_ifs at hsum with hfits
        · cases hsum
          refine ⟨v, de₂, count, rfl, hdescriptor, hcount, rfl, ?_⟩
          simp only [UInt32.toNat_add, UInt32.toNat_one] at hfits ⊢
          exact Nat.mod_eq_of_lt hfits
        · cases hsum
      · next hother =>
          obtain ⟨v, de₂, hv, -⟩ := De.bind_eq_ok.mp hbody
          obtain ⟨⟨byte', rest', hslice', hdescribed⟩, -⟩ := De.descriptor_eq_ok hv
          rw [hslice] at hslice'
          cases hslice'
          rw [hbyte] at hdescribed
          cases hdescribed
          exact absurd rfl hother

theorem visitDescriptor_eq_ok {name : String} {code : UInt64} {access : De.DescribedAccess}
    (hencoding : de.structEncoding = .describedList)
    (h : VisitSeq.descriptor name code ⟨0, 1⟩ de = .ok ((), access) de') :
    ∃ d de₁ count, De.descriptor de = .ok d de₁ ∧ De.consumeListHeader de₁ = .ok count de' ∧
      access.counter = 1 ∧ access.fieldCount.toNat = 1 + count.toNat := by
  obtain ⟨⟨d, access₁⟩, de₂, hnext, hmatch⟩ := De.bind_eq_ok.mp h
  obtain ⟨rfl, -⟩ | ⟨v, de₁, count, rfl, hdescriptor, hheader, hcounter, hcount⟩ :=
    nextElement_descriptor_eq_ok hencoding hnext
  · cases hmatch
  · have hkept : access₁ = access ∧ de₂ = de' := by
      cases v with
      | name symbol =>
          simp only at hmatch
          split_ifs at hmatch with hname
          · cases hmatch
          · cases hmatch
            exact ⟨rfl, rfl⟩
      | code c =>
          simp only at hmatch
          split_ifs at hmatch with hcode
          · cases hmatch
          · cases hmatch
            exact ⟨rfl, rfl⟩
    obtain ⟨rfl, rfl⟩ := hkept
    exact ⟨v, de₁, count, hdescriptor, hheader, hcounter, hcount⟩

/-- The descriptor and the header of a described list, and the programs of its fields. -/
theorem composite_eq_ok {name : String} {code : UInt64} {fields : List (KnownField α)}
    {vs : List (Option α)} (helem : de.elemFormatCode = none)
    (h : De.composite name code (fields.mapM VisitSeq.field) de = .ok vs de') :
    ∃ d de₁ opened stop, De.descriptor { de with structEncoding := .describedList } = .ok d de₁ ∧
      de₁.reader.slice.length ≤ de.reader.slice.length ∧
      Opened.parse (de.reader.slice.length - de₁.reader.slice.length) de₁ = some opened ∧
      runAll ((fields.take opened.count).map fun field => De.presentField field.program)
        opened.start = .ok () stop ∧ stop.reader = de'.reader := by
  simp only [De.composite, De.deserializeStruct, De.withStructEncoding] at h
  split at h
  · next vs stop hvisit =>
      cases h
      obtain ⟨⟨vs', access'⟩, de₀, hrun, hvalue⟩ := De.bind_eq_ok.mp hvisit
      cases hvalue
      obtain ⟨⟨⟨⟩, access⟩, de₁, hfirst, hfields⟩ := De.bind_eq_ok.mp hrun
      obtain ⟨v, de₂, count, hdescriptor, hheader, hcounter, hcount⟩ :=
        visitDescriptor_eq_ok rfl hfirst
      obtain ⟨-, -, helem', hlength⟩ := De.descriptor_eq_ok hdescriptor
      obtain ⟨opened, hparse, rfl, hopened⟩ := consumeListHeader_eq_ok
        (de.reader.slice.length - de₂.reader.slice.length) (helem'.trans helem) hheader
      have hle : access.counter ≤ access.fieldCount := by
        rw [UInt32.le_iff_toNat_le, hcounter, hcount, UInt32.toNat_one]
        omega
      have hnonzero : access.counter ≠ 0 := by
        rw [hcounter]
        decide
      have hrest := runAll_fields hnonzero hle hfields
      have hleft : access.fieldCount.toNat - access.counter.toNat = opened.count := by
        rw [hcounter, hcount, hopened, UInt32.toNat_one]
        omega
      rw [hleft] at hrest
      exact ⟨v, de₂, opened, _, hdescriptor, hlength, hparse, hrest, rfl⟩
  · cases h

/-- What stands in front of the elements of a sequence. -/
theorem length_openedSeq {opened : Opened} (h : openedSeq de = some opened) :
    de.reader.slice.length = opened.constructorLength + opened.sizeWidth + opened.inside +
      opened.start.reader.slice.length := by
  obtain ⟨outer, hparse, hinner⟩ := Option.bind_eq_some_iff.mp h
  have houter := Opened.length_parse hparse
  split_ifs at hinner with hfull
  · obtain ⟨hconstructor, hwidth, -, -, hstart⟩ := Opened.length_enterArray hinner
    omega
  · cases hinner
    omega

/-- What a value that is accepted has in front of its parts, and that the parts are read from there. -/
theorem decode_eq_ok (target : Compound α β) (helem : de.elemFormatCode = none)
    (h : target.decode de = .ok () de') :
    ∃ opened stop, target.opened de = some opened ∧
      de.reader.slice.length = opened.constructorLength + opened.sizeWidth + opened.inside +
        opened.start.reader.slice.length ∧
      runAll (target.parts opened.count) opened.start = .ok () stop ∧ stop.reader = de'.reader := by
  cases target with
  | vec element =>
      obtain ⟨vs, de₀, hread, hdone⟩ := De.bind_eq_ok.mp h
      cases hdone
      obtain ⟨access, de₁, haccess, helements⟩ := De.bind_eq_ok.mp hread
      obtain ⟨opened, hopened, rfl, rfl | ⟨size, pos, rfl⟩⟩ := seqAccess_eq_ok helem haccess
      · exact ⟨opened, _, hopened, length_openedSeq hopened, runAll_listElements helements, rfl⟩
      · obtain ⟨stop, hstop, hreader⟩ := runAll_arrayElements helements
        exact ⟨opened, stop, hopened, length_openedSeq hopened, hstop, hreader⟩
  | tuple elements =>
      obtain ⟨vs, de₀, hread, hdone⟩ := De.bind_eq_ok.mp h
      cases hdone
      obtain ⟨opened, hparse, helements⟩ := deserializeTuple_eq_ok helem hread
      have hlength := Opened.length_parse hparse
      exact ⟨opened, _, hparse, by omega, runAll_elements helements, rfl⟩
  | map eq key value =>
      obtain ⟨vs, de₀, hread, hdone⟩ := De.bind_eq_ok.mp h
      cases hdone
      obtain ⟨count, de₁, hcount, hentries⟩ := De.bind_eq_ok.mp hread
      obtain ⟨opened, hparse, rfl, rfl⟩ := mapCount_eq_ok helem hcount
      have hlength := Opened.length_parse hparse
      exact ⟨opened, _, hparse, by omega, runAll_mapEntries _ hentries, rfl⟩
  | composite name code fields =>
      obtain ⟨vs, de₀, hread, hdone⟩ := De.bind_eq_ok.mp h
      cases hdone
      obtain ⟨d, de₁, opened, stop, hdescriptor, hle, hparse, hfields, hreader⟩ :=
        composite_eq_ok helem hread
      have hlength := Opened.length_parse hparse
      refine ⟨opened, stop, ?_, by omega, hfields, hreader⟩
      simp only [Compound.opened, hdescriptor, hparse]

/-- The part reads exactly these bytes. -/
def Takes (start : Deserializer SliceReader) (part : De SliceReader Unit) (piece : Bytes) : Prop :=
  ∀ suffix, part (start.at (piece ++ suffix)) = .ok () (start.at suffix)

theorem runAll_takes {start : Deserializer SliceReader} {parts : List (De SliceReader Unit)}
    {pieces : List Bytes} (h : List.Forall₂ (Takes start) parts pieces) (suffix : Bytes) :
    runAll parts (start.at (pieces.flatten ++ suffix)) = .ok () (start.at suffix) := by
  induction h with
  | nil => rfl
  | @cons part piece parts pieces hpart _ ih =>
      rw [List.flatten_cons, List.append_assoc]
      exact De.bind_eq_ok.mpr ⟨(), _, hpart _, ih⟩

/-- With the encodings of the parts behind the header, the size fits if it counts their bytes. -/
theorem sizeFits_iff {target : Compound α β} {opened : Opened} {pieces : List Bytes} {suffix : Bytes}
    (hopened : target.opened de = some opened)
    (hparts : List.Forall₂ (Takes opened.start) (target.parts opened.count) pieces)
    (hslice : opened.start.reader.slice = pieces.flatten ++ suffix) :
    target.SizeFits de ↔ opened.size = opened.inside + pieces.flatten.length := by
  have hrun := runAll_takes hparts suffix
  have hstart : opened.start.at (pieces.flatten ++ suffix) = opened.start := by rw [← hslice]; rfl
  rw [hstart] at hrun
  constructor
  · rintro ⟨opened', stop, hopened', hstop, hsize⟩
    rw [hopened] at hopened'
    cases hopened'
    rw [hrun] at hstop
    cases hstop
    simp only [hslice, Deserializer.at, List.length_append] at hsize
    omega
  · intro hsize
    refine ⟨opened, _, hopened, hrun, ?_⟩
    simp only [hslice, Deserializer.at, List.length_append]
    omega

/-- What is taken of a compound value is its declared size if and only if the parts that are read fill
this size. -/
theorem consumesDeclared_iff (target : Compound α β) (de : Deserializer SliceReader)
    (helem : de.elemFormatCode = none) :
    target.ConsumesDeclared de ↔
      ((∃ stop, target.decode de = .ok () stop) → target.SizeFits de) := by
  constructor
  · intro h haccepted
    obtain ⟨stop, hstop⟩ := haccepted
    obtain ⟨opened, hopened, hsize⟩ := h stop hstop
    obtain ⟨opened', stop', hopened', hlength, hparts, hreader⟩ := decode_eq_ok target helem hstop
    rw [hopened'] at hopened
    cases hopened
    refine ⟨opened, stop', hopened', hparts, ?_⟩
    rw [hreader]
    omega
  · intro h stop hstop
    obtain ⟨opened, stop₁, hopened, hparts, hsize⟩ := h ⟨stop, hstop⟩
    obtain ⟨opened', stop₂, hopened', hlength, hparts', hreader⟩ := decode_eq_ok target helem hstop
    rw [hopened'] at hopened
    cases hopened
    rw [hparts'] at hparts
    cases hparts
    refine ⟨opened, hopened', ?_⟩
    rw [hreader] at hsize
    omega

/-- The list of two numbers, of which the tuple has two. -/
theorem pair_consumesDeclared :
    (.tuple [De.parseU32, De.parseU32] : Compound UInt32 Unit).ConsumesDeclared
      (Deserializer.new (SliceReader.new [0xc0, 3, 2, 0x43, 0x43])) := by
  refine (consumesDeclared_iff _ _ rfl).mpr fun _ => ?_
  have hopened : (.tuple [De.parseU32, De.parseU32] : Compound UInt32 Unit).opened
      (Deserializer.new (SliceReader.new [0xc0, 3, 2, 0x43, 0x43])) = some
        { code := .list8, constructorLength := 1, sizeWidth := 1, size := 3, count := 2, inside := 1
          start := (Deserializer.new (SliceReader.new [0xc0, 3, 2, 0x43, 0x43])).at [0x43, 0x43] } := by
    decide +kernel
  have hparts : List.Forall₂
      (Takes (Deserializer.new (SliceReader.new [0xc0, 3, 2, 0x43, 0x43])))
      [discard De.parseU32, discard De.parseU32] [[0x43], [0x43]] :=
    .cons (fun _ => rfl) (.cons (fun _ => rfl) .nil)
  exact (sizeFits_iff hopened hparts (List.append_nil _).symm).mpr rfl

/-- What a value that is accepted leaves. -/
def left (target : Compound α β) (de : Deserializer SliceReader) : Option Bytes :=
  match target.decode de with
  | .ok _ stop => some stop.reader.slice
  | .error _ _ => none

theorem left_eq_some {target : Compound α β} {rest : Bytes} (h : target.left de = some rest) :
    ∃ stop, target.decode de = .ok () stop ∧ stop.reader.slice = rest := by
  simp only [left] at h
  split at h
  · next stop hstop =>
      cases h
      exact ⟨stop, hstop, rfl⟩
  · cases h

/-- The bytes up to the end that the header declares. -/
def declaredLength (target : Compound α β) (de : Deserializer SliceReader) : Option Nat :=
  (target.opened de).map fun opened => opened.constructorLength + opened.sizeWidth + opened.size

theorem ConsumesDeclared.length_eq {target : Compound α β} {rest : Bytes} {n : Nat}
    (h : target.ConsumesDeclared de) (hleft : target.left de = some rest)
    (hdeclared : target.declaredLength de = some n) : de.reader.slice.length = n + rest.length := by
  obtain ⟨stop, hstop, rfl⟩ := left_eq_some hleft
  obtain ⟨opened, hopened, hsize⟩ := h stop hstop
  simp only [declaredLength, hopened, Option.map_some, Option.some.injEq] at hdeclared
  rw [hsize, hdeclared]

/-- An empty array with an element constructor, and a described list of two fields for a type that knows
one: a byte of each is left. -/
theorem not_consumesDeclared :
    ¬(.vec De.parseString : Compound String Unit).ConsumesDeclared
        (Deserializer.new (SliceReader.new [0xe0, 2, 0, 0xa1])) ∧
      ¬(.composite "amqp:begin:list" 0x11 [⟨true, De.parseU32⟩] :
          Compound UInt32 Unit).ConsumesDeclared
        (Deserializer.new (SliceReader.new [0x00, 0x53, 0x11, 0xc0, 3, 2, 0x43, 0x43])) := by
  constructor
  · intro h
    have hleft : (.vec De.parseString : Compound String Unit).left
        (Deserializer.new (SliceReader.new [0xe0, 2, 0, 0xa1])) = some [0xa1] := by
      decide +kernel
    have hlength := h.length_eq (n := 4) hleft (by decide +kernel)
    exact absurd hlength (by decide)
  · intro h
    have hleft : (.composite "amqp:begin:list" 0x11 [⟨true, De.parseU32⟩] :
        Compound UInt32 Unit).left
          (Deserializer.new (SliceReader.new [0x00, 0x53, 0x11, 0xc0, 3, 2, 0x43, 0x43])) =
        some [0x43] := by
      decide +kernel
    have hlength := h.length_eq (n := 8) hleft (by decide +kernel)
    exact absurd hlength (by decide)

end Compound

end Fe2o3Amqp
