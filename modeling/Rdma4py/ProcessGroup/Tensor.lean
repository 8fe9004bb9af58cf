import Mathlib.Algebra.Order.Field.Rat

/-!
# What a collective accepts

`_allreduce_tensor` looks at the tensor before it touches anything: its size in bytes, its element type, its alignment and
the timeout.
-/

namespace Rdma4py.ProcessGroup

/-- The exceptions of the process group, with their texts. -/
inductive Exn
  | reconfigureError (text : String)
  | allReduceError (text : String)
  | allReduceTimeoutError (text : String)
  | valueError (text : String)
  | typeError (text : String)
  | notImplementedError (text : String)
  | external (text : String)
  deriving DecidableEq, Repr

/-! ## Timeouts -/

/-- A duration in seconds; a float that is not finite is none. -/
abbrev Duration := Option ℚ

/-- `_seconds`. -/
def seconds (value : Option Duration) (default : Duration) : Except Exn ℚ :=
  match value.getD default with
  | none => .error (.valueError "timeout must be a finite positive duration")
  | some t => if t ≤ 0 then .error (.valueError "timeout must be a finite positive duration") else .ok t

/-! ## Tensors -/

/-- What a collective asks a tensor for. An attribute that may be missing is an option; the name of the element type is in
lower case. -/
structure Tensor where
  hasDataPtr : Bool
  contiguous : Bool
  cuda : Bool
  numel : Option Int
  elementSize : Option Int
  nbytes : Option Int
  dtype : String
  dataPtr : Nat
  deriving DecidableEq, Repr

/-- `_tensor_nbytes`. -/
def tensorNbytes (tensor : Tensor) : Except Exn Int :=
  if tensor.hasDataPtr = false then .error (.typeError "expected a CUDA tensor exposing data_ptr()")
  else if tensor.contiguous = false then .error (.valueError "all-reduce tensor must be contiguous")
  else if tensor.cuda = false then .error (.valueError "all-reduce tensor must reside on CUDA")
  else
    match tensor.numel, tensor.elementSize, tensor.nbytes with
    | some numel, some elementSize, _ => .ok (numel * elementSize)
    | _, _, some nbytes => .ok nbytes
    | _, _, none => .error (.typeError "cannot determine tensor byte length")

/-- The names of the element types. -/
def aliases : List (String × String) :=
  [("torch.float16", "float16"), ("float16", "float16"), ("half", "float16"),
   ("torch.bfloat16", "bfloat16"), ("bfloat16", "bfloat16"),
   ("torch.float32", "float32"), ("float32", "float32"), ("float", "float32"),
   ("torch.float64", "float64"), ("float64", "float64"), ("double", "float64"),
   ("torch.float8_e4m3fn", "float8_e4m3fn"), ("float8_e4m3fn", "float8_e4m3fn"),
   ("torch.float8_e5m2", "float8_e5m2"), ("float8_e5m2", "float8_e5m2"),
   ("torch.int8", "int8"), ("int8", "int8"), ("torch.uint8", "uint8"), ("uint8", "uint8"),
   ("torch.int32", "int32"), ("int32", "int32"), ("torch.uint32", "uint32"), ("uint32", "uint32"),
   ("torch.int64", "int64"), ("int64", "int64"), ("torch.uint64", "uint64"), ("uint64", "uint64")]

/-- The size of an element in bytes. -/
def widths : List (String × Nat) :=
  [("float16", 2), ("bfloat16", 2), ("float32", 4), ("float64", 8), ("int8", 1), ("uint8", 1), ("int32", 4),
   ("uint32", 4), ("int64", 8), ("uint64", 8), ("float8_e4m3fn", 1), ("float8_e5m2", 1)]

/-- `_dtype_key`: the key and the size of an element. -/
def dtypeKey (tensor : Tensor) : Except Exn (String × Nat) :=
  match tensor.elementSize with
  | none => .error (.external "element_size")
  | some itemsize =>
      match aliases.lookup tensor.dtype with
      | none => .error (.typeError s!"unsupported all-reduce dtype {tensor.dtype}")
      | some key =>
          match widths.lookup key with
          | none => .error (.external "widths")
          | some width =>
              if itemsize ≠ width then .error (.typeError "tensor dtype and element_size() disagree")
              else .ok (key, width)

/-- The checks of `_allreduce_tensor` on the tensor: the number of elements, the key of their type and their size. -/
def checkTensor (maxBytes : Int) (tensor : Tensor) : Except Exn (Nat × String × Nat) := do
  let nbytes ← tensorNbytes tensor
  if nbytes ≤ 0 then throw (.valueError "cannot all-reduce an empty tensor")
  if maxBytes < nbytes then throw (.valueError "tensor exceeds the configured staging-buffer capacity")
  let (key, itemsize) ← dtypeKey tensor
  if nbytes % itemsize ≠ 0 then throw (.valueError "tensor byte length is not a whole number of elements")
  let count := nbytes / itemsize
  if 0x7FFFFFFF < count then throw (.valueError "all-reduce supports at most 2**31 - 1 elements")
  if tensor.dataPtr % 16 ≠ 0 then throw (.valueError "all-reduce tensor must be at least 16-byte aligned")
  return (count.toNat, key, itemsize)

end Rdma4py.ProcessGroup
