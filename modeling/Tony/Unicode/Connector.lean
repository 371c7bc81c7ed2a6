import Tony.Unicode.Ranges

/-! The code points that join the parts of a word. -/

namespace Tony.Unicode

def connectorPunctuation : Ranges :=
  [(0x005F, 0x005F), (0x203F, 0x2040), (0x2054, 0x2054), (0xFE33, 0xFE34), (0xFE4D, 0xFE4F),
   (0xFF3F, 0xFF3F)]

def joinControl : Ranges :=
  [(0x200C, 0x200D)]

end Tony.Unicode
