import Acps.Lib.Json

namespace Acps.Dsp

abbrev Timestamp := ℤ

inductive OperationType where
  | upsert
  | delete
  deriving DecidableEq

structure Envelope where
  seq : ℤ
  ts : Option Timestamp
  op : Option OperationType
  type : String
  id : String
  version : ℤ
  payload : Option JsonObject
  deriving DecidableEq

def Envelope.isDelete (e : Envelope) : Bool := e.op = some .delete

end Acps.Dsp
