import SstElements.Library.MachineWord

/-!
# Basic types of the memory hierarchy
-/

namespace SstElements.MemHierarchy

/-- A byte address. -/
abbrev Addr := UInt64

abbrev SimTime := UInt64

/-- Commands of the events of the memory hierarchy. -/
inductive Command where
  | NULLCMD
  | GetS | GetX | GetSX | Write | FlushLine | FlushLineInv | FlushAll
  | GetSResp | GetXResp | WriteResp | FlushLineResp | FlushAllResp
  | PutS | PutM | PutE | PutX
  | Inv | ForceInv
  | Fetch | FetchInv | FetchInvX | FetchResp | FetchXResp
  | NACK | AckInv | AckPut
  | Put | Get | AckMove
  | CustomReq | CustomResp | CustomAck
  | Evict
deriving DecidableEq, Repr

/-- `CommandClass`: traffic class of a command. -/
inductive CommandClass where | Request | Data | Ack | ForwardRequest
deriving DecidableEq, Repr

namespace Command

def commandClass : Command → CommandClass
  | GetSResp | GetXResp | FetchResp | FetchXResp | CustomResp => .Data
  | WriteResp | FlushLineResp | FlushAllResp => .Ack
  | NACK | AckInv | AckPut | AckMove | CustomAck => .Ack
  | Inv | ForceInv | Fetch | FetchInv | FetchInvX => .ForwardRequest
  | _ => .Request

def response : Command → Command
  | GetS => GetSResp
  | GetX => GetXResp
  | GetSX => GetSResp
  | Write => WriteResp
  | FlushLine => FlushLineResp
  | FlushLineInv => FlushLineResp
  | FlushAll => FlushAllResp
  | PutS => AckPut
  | PutM => AckPut
  | PutE => AckPut
  | PutX => AckPut
  | Inv => AckInv
  | ForceInv => AckInv
  | Fetch => FetchResp
  | FetchInv => FetchResp
  | FetchInvX => FetchXResp
  | Put => AckMove
  | Get => AckMove
  | CustomReq => CustomResp
  | _ => NULLCMD

/-- `BasicCommandClassArr`: the command is of class Response. -/
def isResponse : Command → Bool
  | GetSResp | GetXResp | WriteResp | FlushLineResp | FlushAllResp => true
  | FetchResp | FetchXResp | NACK | AckInv | AckPut => true
  | AckMove | CustomResp | CustomAck => true
  | _ => false

end Command

/-- Coherence states of a line, stable and transient. -/
inductive State where
  | NP | I | S | E | O | M
  | IS | IM | SM | OM
  | I_d | S_d | M_d
  | M_Inv | M_InvX | E_Inv | E_InvX
  | S_D | E_D | M_D | SM_D | SB_D
  | S_Inv | SM_Inv | SD_Inv
  | MI | EI | SI
  | M_B | E_B | S_B | I_B | SB_Inv
  | IA | SA | EA | MA
  | NULLST
deriving DecidableEq, Repr

end SstElements.MemHierarchy
