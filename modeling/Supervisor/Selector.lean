/-! Segment selectors: an index into the descriptor table and a privilege ring. -/

namespace Supervisor

structure Selector where
  value : UInt16
deriving DecidableEq

namespace Selector

def ofIndex (index ring : UInt16) : Selector := ⟨index <<< 3 ||| ring⟩

def index (s : Selector) : UInt16 := s.value >>> 3

def kernelCode : Selector := ofIndex 1 0

def kernelData : Selector := ofIndex 2 0

def userData : Selector := ofIndex 3 3

def userCode : Selector := ofIndex 4 3

end Selector

/-- The selectors that an environment starts with. -/
structure Segments where
  code : Selector
  data : Selector
deriving DecidableEq

namespace Segments

def kernel : Segments := ⟨.kernelCode, .kernelData⟩

def user : Segments := ⟨.userCode, .userData⟩

end Segments

end Supervisor
