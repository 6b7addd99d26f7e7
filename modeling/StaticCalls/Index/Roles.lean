/-! What an occurrence does to its symbol, as a set of bits. -/
namespace StaticCalls

structure SymbolRoles where
  bits : Int32
deriving DecidableEq, Repr

namespace SymbolRoles

instance : EmptyCollection SymbolRoles := ⟨⟨0⟩⟩

instance : Inhabited SymbolRoles := ⟨∅⟩

instance : Union SymbolRoles := ⟨fun a b => ⟨a.bits ||| b.bits⟩⟩

def definition : SymbolRoles := ⟨0x1⟩
def importing : SymbolRoles := ⟨0x2⟩
def writeAccess : SymbolRoles := ⟨0x4⟩
def readAccess : SymbolRoles := ⟨0x8⟩
def generated : SymbolRoles := ⟨0x10⟩
def test : SymbolRoles := ⟨0x20⟩
def forwardDefinition : SymbolRoles := ⟨0x40⟩

/-- Every bit of `b` is set in `a`. -/
def contains (a b : SymbolRoles) : Bool := a.bits &&& b.bits == b.bits

def isDefinition (roles : SymbolRoles) : Bool := roles.contains definition

end SymbolRoles
end StaticCalls
