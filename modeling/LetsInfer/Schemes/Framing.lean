import LetsInfer.Schemes.Words
import LetsInfer.Schemes.Texts

/-! @scheme framing | name:Fields behind their lengths | family:codec

    A list of fields written as one text, each behind its length as a big-endian word of eight
    bytes. No two lists of fields have the same text, whatever the fields are, as long as every
    length fits its word: this is what makes a digest of the text a digest of the fields. -/

namespace Schemes
open List

def beBytes (width n : ℕ) : List UInt8 := (leBytes width n).reverse

/-- A field behind its length. -/
def framed (field : List UInt8) : List UInt8 := beBytes 8 field.length ++ field

def frame (fields : List (List UInt8)) : List UInt8 := fields.flatMap framed

end Schemes
