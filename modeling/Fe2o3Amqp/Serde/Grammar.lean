import Fe2o3Amqp.Serde.Format

/-!
# Encoded values

The layout of an encoded value as a tree: a constructor, which is a format code or a descriptor in
front of another constructor, and the data that it announces.  The contents of texts, numbers and
truth values are any bytes of the right length.
-/

namespace Fe2o3Amqp

inductive Encoded where
  | fixed (code : EncodingCodes) (data : Bytes)
  | variable (code : EncodingCodes) (data : Bytes)
  | compound (code : EncodingCodes) (items : List Encoded)
  /-- `model` is a value with the constructor of the elements, which an empty array has too. -/
  | array (code : EncodingCodes) (model : Encoded) (elements : List Encoded)
  | described (descriptor value : Encoded)

/-- The width of the size field behind a format code. -/
def EncodingCodes.sizeWidth (code : EncodingCodes) : Nat :=
  match Category.tryFrom code with
  | some (.variable width) | some (.compound width) | some (.array width) => width
  | _ => 0

namespace Encoded

mutual

def constructor : Encoded → Bytes
  | .fixed code _ | .variable code _ | .compound code _ | .array code _ _ => [code.toU8]
  | .described descriptor value =>
      EncodingCodes.describedType.toU8 :: (descriptor.constructor ++ descriptor.data) ++
        value.constructor

def data : Encoded → Bytes
  | .fixed _ data => data
  | .variable code data => BigEndian.encode code.sizeWidth data.length ++ data
  | .compound code items =>
      let body := BigEndian.encode code.sizeWidth items.length ++ bytesOf items
      BigEndian.encode code.sizeWidth body.length ++ body
  | .array code model elements =>
      let body :=
        BigEndian.encode code.sizeWidth elements.length ++ model.constructor ++ dataOf elements
      BigEndian.encode code.sizeWidth body.length ++ body
  | .described _ value => value.data

/-- The items of a list or a map, one after another. -/
def bytesOf : List Encoded → Bytes
  | [] => []
  | item :: items => item.constructor ++ item.data ++ bytesOf items

/-- The elements of an array, without their constructor. -/
def dataOf : List Encoded → Bytes
  | [] => []
  | element :: elements => element.data ++ dataOf elements

end

def bytes (v : Encoded) : Bytes := v.constructor ++ v.data

def isDescribed : Encoded → Bool
  | .described _ _ => true
  | _ => false

def isMap (code : EncodingCodes) : Bool := code == .map8 || code == .map32

mutual

/-- The codes are of the right kind, the sizes and counts fit into their fields, a map has its values
beside its keys, and the elements of an array have one constructor. -/
def WellFormed : Encoded → Prop
  | .fixed code data => Category.tryFrom code = some (.fixed data.length)
  | .variable code data =>
      Category.tryFrom code = some (.variable code.sizeWidth) ∧ data.length < 256 ^ code.sizeWidth
  | .compound code items =>
      Category.tryFrom code = some (.compound code.sizeWidth) ∧
        items.length < 256 ^ code.sizeWidth ∧
        code.sizeWidth + (bytesOf items).length < 256 ^ code.sizeWidth ∧
        (isMap code = true → items.length % 2 = 0) ∧ AllWellFormed items
  | .array code model elements =>
      Category.tryFrom code = some (.array code.sizeWidth) ∧
        elements.length < 256 ^ code.sizeWidth ∧
        code.sizeWidth + (model.constructor ++ dataOf elements).length < 256 ^ code.sizeWidth ∧
        model.WellFormed ∧ (∀ element ∈ elements, element.constructor = model.constructor) ∧
        AllWellFormed elements
  | .described descriptor value => descriptor.WellFormed ∧ value.WellFormed

def AllWellFormed : List Encoded → Prop
  | [] => True
  | v :: vs => v.WellFormed ∧ AllWellFormed vs

end

end Encoded

end Fe2o3Amqp
