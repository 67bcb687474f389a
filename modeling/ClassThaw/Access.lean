namespace ClassThaw

/-- A kind of flags, listed in order of their bits. -/
class FlagKind (F : Type) where
  -- All flags.
  all : List F
  -- The bit of a flag.
  mask : F → UInt16
  -- The word for a flag.
  label : F → String

/-- The flag word of a class, a field or a method. -/
structure Access (F : Type) where
  bits : UInt16
  deriving DecidableEq, Repr

namespace Access

variable {F : Type} [FlagKind F]

def ofFlags (flags : List F) : Access F :=
  ⟨flags.foldl (fun bits flag => bits ||| FlagKind.mask flag) 0⟩

def has (access : Access F) (flag : F) : Bool :=
  access.bits &&& FlagKind.mask flag == FlagKind.mask flag

def set (access : Access F) (flag : F) : Access F :=
  ⟨access.bits ||| FlagKind.mask flag⟩

def clear (access : Access F) (flag : F) : Access F :=
  ⟨access.bits &&& ~~~FlagKind.mask flag⟩

/-- The words for the flags that are set, in order of their bits. -/
def labels (access : Access F) : List String :=
  (FlagKind.all.filter access.has).map FlagKind.label

end Access

inductive ClassFlag where
  | «public» | final | super | interface | abstract | synthetic | annotationType | enum | module
  deriving DecidableEq, Repr

instance : FlagKind ClassFlag where
  all := [.public, .final, .super, .interface, .abstract, .synthetic, .annotationType, .enum,
    .module]
  mask
    | .public => 0x0001
    | .final => 0x0010
    | .super => 0x0020
    | .interface => 0x0200
    | .abstract => 0x0400
    | .synthetic => 0x1000
    | .annotationType => 0x2000
    | .enum => 0x4000
    | .module => 0x8000
  label
    | .public => "PUBLIC"
    | .final => "FINAL"
    | .super => "SUPER"
    | .interface => "INTERFACE"
    | .abstract => "ABSTRACT"
    | .synthetic => "SYNTHETIC"
    | .annotationType => "ANNOTATION"
    | .enum => "ENUM"
    | .module => "MODULE"

inductive FieldFlag where
  | «public» | «private» | «protected» | static | final | volatile | transient | synthetic | enum
  deriving DecidableEq, Repr

instance : FlagKind FieldFlag where
  all := [.public, .private, .protected, .static, .final, .volatile, .transient, .synthetic, .enum]
  mask
    | .public => 0x0001
    | .private => 0x0002
    | .protected => 0x0004
    | .static => 0x0008
    | .final => 0x0010
    | .volatile => 0x0040
    | .transient => 0x0080
    | .synthetic => 0x1000
    | .enum => 0x4000
  label
    | .public => "PUBLIC"
    | .private => "PRIVATE"
    | .protected => "PROTECTED"
    | .static => "STATIC"
    | .final => "FINAL"
    | .volatile => "VOLATILE"
    | .transient => "TRANSIENT"
    | .synthetic => "SYNTHETIC"
    | .enum => "ENUM"

inductive MethodFlag where
  | «public» | «private» | «protected» | static | final | synchronized | bridge | varargs
  | native | abstract | strict | synthetic
  deriving DecidableEq, Repr

instance : FlagKind MethodFlag where
  all := [.public, .private, .protected, .static, .final, .synchronized, .bridge, .varargs,
    .native, .abstract, .strict, .synthetic]
  mask
    | .public => 0x0001
    | .private => 0x0002
    | .protected => 0x0004
    | .static => 0x0008
    | .final => 0x0010
    | .synchronized => 0x0020
    | .bridge => 0x0040
    | .varargs => 0x0080
    | .native => 0x0100
    | .abstract => 0x0400
    | .strict => 0x0800
    | .synthetic => 0x1000
  label
    | .public => "PUBLIC"
    | .private => "PRIVATE"
    | .protected => "PROTECTED"
    | .static => "STATIC"
    | .final => "FINAL"
    | .synchronized => "SYNCHRONIZED"
    | .bridge => "BRIDGE"
    | .varargs => "VARARGS"
    | .native => "NATIVE"
    | .abstract => "ABSTRACT"
    | .strict => "STRICT"
    | .synthetic => "SYNTHETIC"

end ClassThaw
