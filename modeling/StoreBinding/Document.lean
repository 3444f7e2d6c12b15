import StoreBinding.OrderedMap
import StoreBinding.Value.Text

/-!
Records as documents. A record is addressed by table and key, joined into one document
id by a colon that is not escaped, and its fields are stored as text in order. A read
gives all fields, or those of a nonempty request that exist.
-/
namespace StoreBinding

def separator : Char := ':'

def documentId (table key : String) : String :=
  table ++ separator.toString ++ key

/-- What a stored document holds: field values by name, in order. -/
abbrev Content := OrderedMap String Value

abbrev Fields := OrderedMap String String

namespace Content

/-- The fields of a content as text; the first value that has none is the error. -/
def encode (c : Content) : Except Unwritable Fields := c.mapValues Value.encode

/-- The part of a content that a request selects: everything if nothing is named. -/
def requested (c : Content) (names : List String) : Content :=
  if names = [] then c else c.select names

def project (c : Content) (names : List String) : Except Unwritable Fields :=
  (c.requested names).encode

end Content

/-- Text fields as document content. -/
def Fields.content (f : Fields) : Content :=
  ⟨f.entries.map fun p => (p.1, .text p.2), by
    rw [List.map_map]; exact f.nodup⟩

/-- Text needs no further encoding. -/
theorem Fields.encode_content (f : Fields) : f.content.encode = .ok f := by
  rw [Content.encode, OrderedMap.mapValues_eq_ok_iff, Fields.content,
    Entries.mapValues_map Value.encode Value.text]
  exact Entries.mapValues_ok f.entries

end StoreBinding
