import Evm.Instruction.Basic

/-!
# The instruction table

What is fixed about an instruction: its name, how many words it takes from the stack and leaves
there, its immediate bytes, whether it ends the frame, and the proposal that introduced it.
-/

namespace Evm

/-- The name of the instruction. -/
def UnaryOp.name : UnaryOp → String
  | isZero => "ISZERO"
  | not => "NOT"

/-- The name of the instruction. -/
def BinaryOp.name : BinaryOp → String
  | add => "ADD"
  | mul => "MUL"
  | sub => "SUB"
  | div => "DIV"
  | sdiv => "SDIV"
  | mod => "MOD"
  | smod => "SMOD"
  | signExtend => "SIGNEXTEND"
  | lt => "LT"
  | gt => "GT"
  | slt => "SLT"
  | sgt => "SGT"
  | eq => "EQ"
  | and => "AND"
  | or => "OR"
  | xor => "XOR"
  | byte => "BYTE"
  | shl => "SHL"
  | shr => "SHR"
  | sar => "SAR"

/-- The name of the instruction. -/
def TernaryOp.name : TernaryOp → String
  | addMod => "ADDMOD"
  | mulMod => "MULMOD"

/-- The name of the instruction. -/
def FrameField.name : FrameField → String
  | address => "ADDRESS"
  | caller => "CALLER"
  | callValue => "CALLVALUE"
  | callDataSize => "CALLDATASIZE"
  | codeSize => "CODESIZE"
  | returnDataSize => "RETURNDATASIZE"
  | pc => "PC"
  | memorySize => "MSIZE"
  | gas => "GAS"

/-- The name of the instruction. -/
def EnvField.name : EnvField → String
  | origin => "ORIGIN"
  | gasPrice => "GASPRICE"
  | coinbase => "COINBASE"
  | timestamp => "TIMESTAMP"
  | number => "NUMBER"
  | difficulty => "DIFFICULTY"
  | gasLimit => "GASLIMIT"
  | chainId => "CHAINID"
  | baseFee => "BASEFEE"
  | blobBaseFee => "BLOBBASEFEE"

/-- The name of the instruction. -/
def AccountField.name : AccountField → String
  | balance => "BALANCE"
  | codeSize => "EXTCODESIZE"
  | codeHash => "EXTCODEHASH"

/-- The name of the instruction. -/
def CopySource.name : CopySource → String
  | callData => "CALLDATACOPY"
  | code => "CODECOPY"
  | returnData => "RETURNDATACOPY"

/-- The name of the instruction. -/
def CallScheme.instructionName : CallScheme → String
  | call => "CALL"
  | callCode => "CALLCODE"
  | delegateCall => "DELEGATECALL"
  | staticCall => "STATICCALL"

/-- The name of the scheme in reports. -/
def CallScheme.name : CallScheme → String
  | call => "Call"
  | callCode => "CallCode"
  | delegateCall => "DelegateCall"
  | staticCall => "StaticCall"

namespace Instruction

/-- The name of the instruction. -/
def name : Instruction → String
  | stop => "STOP"
  | unary op => op.name
  | binary op => op.name
  | ternary op => op.name
  | exp => "EXP"
  | keccak256 => "KECCAK256"
  | frameField field => field.name
  | envField field => field.name
  | accountField field => field.name
  | selfBalance => "SELFBALANCE"
  | callDataLoad => "CALLDATALOAD"
  | copy source => source.name
  | extCodeCopy => "EXTCODECOPY"
  | blockHash => "BLOCKHASH"
  | blobHash => "BLOBHASH"
  | pop => "POP"
  | mload => "MLOAD"
  | mstore => "MSTORE"
  | mstore8 => "MSTORE8"
  | mcopy => "MCOPY"
  | sload => "SLOAD"
  | sstore => "SSTORE"
  | tload => "TLOAD"
  | tstore => "TSTORE"
  | jump => "JUMP"
  | jumpI => "JUMPI"
  | jumpDest => "JUMPDEST"
  | beginSub => "BEGINSUB"
  | returnSub => "RETURNSUB"
  | jumpSub => "JUMPSUB"
  | push size => s!"PUSH{size}"
  | dup depth => s!"DUP{depth}"
  | swap depth => s!"SWAP{depth}"
  | log topics => s!"LOG{topics}"
  | create salted => if salted then "CREATE2" else "CREATE"
  | call scheme => scheme.instructionName
  | ret => "RETURN"
  | revert => "REVERT"
  | invalid => "INVALID"
  | selfDestruct => "SELFDESTRUCT"

/-- Number of words that the instruction looks at, the topmost ones. -/
def inputs : Instruction → Nat
  | stop | frameField _ | envField _ | selfBalance | jumpDest | beginSub | returnSub | push _
  | invalid => 0
  | unary _ | accountField _ | callDataLoad | blockHash | blobHash | pop | mload | sload | tload
  | jump | jumpSub | selfDestruct => 1
  | binary _ | exp | keccak256 | mstore | mstore8 | sstore | tstore | jumpI | ret | revert => 2
  | ternary _ | copy _ | mcopy => 3
  | extCodeCopy => 4
  | dup depth => depth
  | swap depth => depth + 1
  | log topics => topics + 2
  | create salted => if salted then 4 else 3
  | call .call | call .callCode => 7
  | call .delegateCall | call .staticCall => 6

/-- Number of words that the instruction leaves in their place. -/
def outputs : Instruction → Nat
  | unary _ | binary _ | ternary _ | exp | keccak256 | frameField _ | envField _ | accountField _
  | selfBalance | callDataLoad | blockHash | blobHash | mload | sload | tload | push _
  | create _ | call _ => 1
  | stop | copy _ | extCodeCopy | pop | mstore | mstore8 | mcopy | sstore | tstore | jump | jumpI
  | jumpDest | beginSub | returnSub | jumpSub | log _ | ret | revert | invalid
  | selfDestruct => 0
  | dup depth => depth + 1
  | swap depth => depth + 1

/-- By how many words the stack grows. -/
def stackChange (i : Instruction) : Int := (i.outputs : Int) - i.inputs

/-- Number of immediate bytes. -/
def immediate : Instruction → Nat
  | push size => size
  | _ => 0

/-- Whether the instruction ends the frame whenever it succeeds. -/
def isTerminating : Instruction → Bool
  | stop | ret | revert | invalid | selfDestruct => true
  | _ => false

/-- The proposal that introduced the instruction, none for those there from the start. -/
def introducedBy? : Instruction → Option Eip
  | binary .shl | binary .shr | binary .sar => some .eip145
  | frameField .returnDataSize | copy .returnData => some .eip211
  | accountField .codeHash => some .eip1052
  | envField .chainId => some .eip1344
  | selfBalance => some .eip1884
  | envField .baseFee => some .eip3198
  | blobHash => some .eip4844
  | envField .blobBaseFee => some .eip7516
  | tload | tstore => some .eip1153
  | mcopy => some .eip5656
  | beginSub | returnSub | jumpSub => some .eip2315
  | push 0 => some .eip3855
  | call .delegateCall => some .eip7
  | call .staticCall => some .eip214
  | create true => some .eip1014
  | revert => some .eip140
  | _ => none

/-- Whether the instruction is active under a feature set. -/
def isActive (features : Features) (i : Instruction) : Bool := i.introducedBy?.all features.has

end Instruction

end Evm
