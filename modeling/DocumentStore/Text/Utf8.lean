/-! Texts as the bytes that encode them. -/
namespace DocumentStore

abbrev Bytes := List UInt8

def utf8 (s : String) : Bytes := s.toUTF8.toList

def utf8Char (c : Char) : Bytes := String.utf8EncodeChar c

end DocumentStore
