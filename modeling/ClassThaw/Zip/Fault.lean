namespace ClassThaw.Zip

/-- What is wrong with an archive in the Zip format, or with one of its entries. -/
inductive Fault where
  | unexpectedEnd
  -- There is no end record.
  | noEndRecord
  -- The comment of the end record goes on beyond the end.
  | longComment
  -- The directory does not start in front of the end record.
  | directoryAfterEnd
  -- There is no entry of a directory where the end record says.
  | noDirectory
  -- The wide end record does not start in front of its locator.
  | wideAfterLocator
  | severalDisks
  | noWideEndRecord
  -- The wide end record has too few bytes.
  | wideTooShort
  -- The wide end record goes on beyond its locator.
  | wideTooLong
  -- The wide end record and its locator name different disks.
  | wideDisk
  -- The wide end record ends in front of its locator.
  | wideLength
  -- There is no room for as many entries as the wide end record says.
  | wideCount
  -- The data of a member does not start with a header.
  | noHeader
  | encrypted
  | unknownMethod
  | wrongPassword
  deriving DecidableEq, Repr

def Fault.message : Fault → String
  | .unexpectedEnd => "i/o error"
  | .noEndRecord => "invalid Zip archive: Could not find EOCD"
  | .longComment => "invalid Zip archive: EOCD comment exceeds file boundary"
  | .directoryAfterEnd => "invalid Zip archive: Invalid CDFH offset in EOCD"
  | .noDirectory => "invalid Zip archive: No CDFH found"
  | .wideAfterLocator => "invalid Zip archive: Invalid EOCD64 Locator CD offset"
  | .severalDisks => "invalid Zip archive: Multi-disk ZIP files are not supported"
  | .noWideEndRecord => "invalid Zip archive: Could not find EOCD64"
  | .wideTooShort => "invalid Zip archive: Low EOCD64 record size"
  | .wideTooLong => "invalid Zip archive: EOCD64 extends beyond EOCD64 locator"
  | .wideDisk => "invalid Zip archive: Invalid EOCD64: inconsistency with Locator data"
  | .wideLength => "invalid Zip archive: Invalid EOCD64: inconsistent length"
  | .wideCount => "invalid Zip archive: Invalid EOCD64: inconsistent number of files"
  | .noHeader => "invalid Zip archive: Invalid local file header"
  | .encrypted => "unsupported Zip archive: Password required to decrypt file"
  | .unknownMethod => "unsupported Zip archive: Compression method not supported"
  | .wrongPassword => "provided password is incorrect"

def Fault.cause? : Fault → Option String
  | .unexpectedEnd => some "failed to fill whole buffer"
  | _ => none

end ClassThaw.Zip
