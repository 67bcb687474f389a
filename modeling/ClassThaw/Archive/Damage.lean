namespace ClassThaw

/-- What is wrong with the content of an archive's entry. -/
inductive Damage where
  -- The packed content means nothing.
  | corrupt
  -- The packed content ends before it should.
  | incomplete
  -- The content has another checksum than it should have.
  | checksum
  deriving DecidableEq, Repr

def Damage.message : Damage → String
  | .corrupt => "corrupt deflate stream"
  | .incomplete => "incomplete deflate stream"
  | .checksum => "Invalid checksum"

end ClassThaw
