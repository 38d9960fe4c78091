import Mathlib

namespace DCFabric

abbrev UINT1 := UInt8
abbrev UINT2 := UInt16
abbrev UINT4 := UInt32
abbrev UINT8 := UInt64
abbrev INT4 := Int32

def BNC_OK : INT4 := 0
def BNC_ERR : INT4 := -1

end DCFabric
