import Aioscpu.Framework.ConfigParser

/-! # Text Files

  Files that are opened in text mode. What a file holds is bytes, of a type `β`; the encoding is
  the one of the locale. Newlines of every kind are read as `'\n'`, and written as they are.

  - `read_encode`: a text without carriage returns is read as it was written.
  - `lines_writes`: lines that were written one after the other are read back.
-/

universe u

structure Encoding (β : Type u) where
  encodable : Char → Bool
  /-- For texts whose characters are encodable. -/
  encode : String → β
  /-- `none` where it raises. -/
  decode : β → Option String
  /-- With `errors="replace"`. -/
  replaced : β → String
  size : β → Nat
  encodable_newline : encodable '\n' = true
  decode_encode : ∀ s : String, (∀ c ∈ s.toList, encodable c = true) → decode (encode s) = some s
  replaced_of_decode : ∀ b s, decode b = some s → replaced b = s

namespace Encoding

variable {β : Type u} (enc : Encoding β)

def Encodable (s : String) : Bool := s.toList.all enc.encodable

/-- `fh.read()`, with `errors="replace"`. -/
def read (b : β) : String := String.ofList (ConfigParser.translate (enc.replaced b).toList)

/-- The lines of a file without their newlines, as a loop takes them; `none` where it raises. -/
def lines (b : β) : Option (List String) :=
  (enc.decode b).map fun s => (ConfigParser.lines s.toList).map String.ofList

/-- What texts that are written one after the other leave in the file, and whether no write
    raises. The texts before the first that is not encodable are written. -/
def writes (texts : List String) : β × Bool :=
  (enc.encode (String.join (texts.takeWhile enc.Encodable)), texts.all enc.Encodable)

variable {enc}

theorem decode_of_encodable {s : String} (h : enc.Encodable s = true) :
    enc.decode (enc.encode s) = some s :=
  enc.decode_encode s (List.all_eq_true.mp h)

/-- **A text is read as it was written**, if it has no carriage return. -/
theorem read_encode {s : String} (h : enc.Encodable s = true) (hreturn : '\r' ∉ s.toList) :
    enc.read (enc.encode s) = s := by
  unfold read
  rw [enc.replaced_of_decode _ _ (decode_of_encodable h),
    ConfigParser.translate_of_not_mem hreturn, String.ofList_toList]

theorem encodable_join {texts : List String} (h : texts.all enc.Encodable = true) :
    enc.Encodable (String.join texts) = true := by
  unfold Encodable
  rw [String.toList_join, List.all_flatMap]
  exact h

/-- **Lines that were written one after the other are read back**, if they hold no newline of
    any kind. -/
theorem lines_writes {ls : List String} (hencodable : ls.all enc.Encodable = true)
    (hline : ∀ l ∈ ls, '\n' ∉ l.toList ∧ '\r' ∉ l.toList) :
    (enc.writes (ls.map (· ++ "\n"))).2 = true ∧
      enc.lines (enc.writes (ls.map (· ++ "\n"))).1 = some ls := by
  have hall : (ls.map (· ++ "\n")).all enc.Encodable = true := by
    rw [List.all_map, List.all_eq_true]
    intro l hl
    have hl := List.all_eq_true.mp hencodable l hl
    unfold Encodable at hl
    simp [Encodable, hl, enc.encodable_newline]
  refine ⟨hall, ?_⟩
  have htake : (ls.map (· ++ "\n")).takeWhile enc.Encodable = ls.map (· ++ "\n") := by
    rw [List.takeWhile_eq_self_iff]
    exact fun l hl => List.all_eq_true.mp hall l hl
  have htext : (String.join (ls.map (· ++ "\n"))).toList =
      (ls.map String.toList).flatMap (· ++ ['\n']) := by
    rw [String.toList_join, List.flatMap_map, List.flatMap_map]
    congr 1
    funext l
    rw [String.toList_append]
    rfl
  unfold lines writes
  rw [htake, decode_of_encodable (encodable_join hall), Option.map_some, htext,
    ConfigParser.lines_flatMap, List.map_map]
  · congr 1
    conv_rhs => rw [← List.map_id ls]
    exact List.map_congr_left fun l _ => String.ofList_toList
  · intro part hpart
    obtain ⟨l, hl, rfl⟩ := List.mem_map.mp hpart
    exact hline l hl

/-- Every text can be written, and stands for its bytes. -/
def plain : Encoding String where
  encodable := fun _ => true
  encode := id
  decode := some
  replaced := id
  size := String.utf8ByteSize
  encodable_newline := rfl
  decode_encode := fun _ _ => rfl
  replaced_of_decode := fun _ _ h => Option.some.inj h

end Encoding
