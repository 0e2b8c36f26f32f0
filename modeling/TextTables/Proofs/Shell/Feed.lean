import TextTables.Proofs.Text.Words
import TextTables.Shell.Feed
/-!
# Feeds of texts

The bytes of a text are cut into lines before they are decoded, while a script is decoded first. The
byte of a line feed is part of no other character, so that both give the same lines.
-/

namespace TextTables

/-! ## Bytes of characters -/

theorem toList_loop_eq (bytes : ByteArray) (i : Nat) (read : List UInt8) :
    ByteArray.toList.loop bytes i read = read.reverse ++ bytes.data.toList.drop i := by
  fun_induction ByteArray.toList.loop bytes i read with
  | case1 i read hlt ih =>
    have hlength : i < bytes.data.toList.length := hlt
    have hget : bytes.get! i = bytes.data.toList[i] := getElem!_pos bytes.data i hlt
    rw [ih, List.drop_eq_getElem_cons hlength, hget, List.reverse_cons, List.append_assoc, List.singleton_append]
  | case2 i read hge =>
    rw [List.drop_eq_nil_of_le (Nat.le_of_not_lt hge), List.append_nil]

theorem toList_utf8Encode (cs : List Char) : cs.utf8Encode.toList = cs.flatMap String.utf8EncodeChar := by
  rw [ByteArray.toList, toList_loop_eq, List.utf8Encode]
  simp

theorem testBit_or {mark : UInt8} (h : mark.toNat.testBit 7 = true) (byte : UInt8) :
    (byte ||| mark).toNat.testBit 7 = true := by
  rw [UInt8.toNat_or, Nat.testBit_or, h, Bool.or_true]

/-- The bytes of a character that takes more than one are marked by their highest bit. -/
theorem testBit_of_mem_utf8EncodeChar {c : Char} {byte : UInt8} (hsize : c.utf8Size ≠ 1)
    (h : byte ∈ String.utf8EncodeChar c) : byte.toNat.testBit 7 = true := by
  have hsizes : c.utf8Size = 2 ∨ c.utf8Size = 3 ∨ c.utf8Size = 4 := by
    have hpos := c.utf8Size_pos
    have hle := c.utf8Size_le_four
    omega
  obtain hsize | hsize | hsize := hsizes
  · rw [String.utf8EncodeChar_eq_cons_cons hsize] at h
    simp only [List.mem_cons, List.not_mem_nil, or_false] at h
    rcases h with rfl | rfl <;> exact testBit_or (by decide) _
  · rw [String.utf8EncodeChar_eq_cons_cons_cons hsize] at h
    simp only [List.mem_cons, List.not_mem_nil, or_false] at h
    rcases h with rfl | rfl | rfl <;> exact testBit_or (by decide) _
  · rw [String.utf8EncodeChar_eq_cons_cons_cons_cons hsize] at h
    simp only [List.mem_cons, List.not_mem_nil, or_false] at h
    rcases h with rfl | rfl | rfl | rfl <;> exact testBit_or (by decide) _

/-- The byte of a line feed is in no other character. -/
theorem eq_of_mem_utf8EncodeChar {c : Char} (h : 10 ∈ String.utf8EncodeChar c) : c = '\n' := by
  by_cases hsize : c.utf8Size = 1
  · rw [String.utf8EncodeChar_eq_singleton hsize, List.mem_singleton] at h
    have hsmall : c.val.toNat ≤ 127 := UInt32.le_iff_toNat_le.1 (Char.utf8Size_eq_one_iff.1 hsize)
    have hval : 10 = c.val.toNat % 256 := congrArg UInt8.toNat h
    apply Char.toNat_inj.1
    change c.val.toNat = 10
    omega
  · exact absurd (testBit_of_mem_utf8EncodeChar hsize h) (by decide)

/-! ## Pieces between line feeds -/

/-- Splitting what the elements of a list become, if one of them becomes the separator alone and no other
one holds it. -/
theorem splitOn_flatMap {α β : Type} [DecidableEq α] [DecidableEq β] {f : α → List β} {a : α} {b : β}
    (ha : f a = [b]) (hb : ∀ c, b ∈ f c → c = a) (as : List α) :
    (as.flatMap f).splitOn b = (as.splitOn a).map (·.flatMap f) := by
  induction as with
  | nil => rfl
  | cons c rest ih =>
    rw [List.flatMap_cons, List.splitOn_cons_eq_if_modifyHead]
    by_cases hc : c = a
    · rw [hc, ha, List.singleton_append, List.splitOn_cons_eq_if_modifyHead, ih]
      simp
    · rw [Text.splitOn_append (mt (hb c) hc), ih]
      cases rest.splitOn a <;> simp [hc]

/-- Pieces of a text are read from their bytes. -/
theorem decodePieces_utf8 (pieces : List (List Char)) :
    decodePieces ((pieces.map (·.flatMap String.utf8EncodeChar))) = (pieces, false) := by
  induction pieces with
  | nil => rfl
  | cons piece rest ih =>
    have hpiece : String.fromUTF8? (piece.flatMap String.utf8EncodeChar).toByteArray =
        some (String.ofList piece) := by
      rw [String.fromUTF8?, dif_pos ⟨piece, rfl⟩]
      rfl
    rw [List.map_cons, decodePieces, hpiece, ih]
    simp

/-- The feed of the bytes of a text has the lines of the text. -/
theorem Feed.ofBytes_toUTF8 (text : String) : Feed.ofBytes text.toUTF8 = Feed.ofString text := by
  have hbytes : text.toUTF8.toList = text.toList.flatMap String.utf8EncodeChar := by
    rw [String.toUTF8_eq_toByteArray, ← String.utf8Encode_toList, toList_utf8Encode]
  have hsplit := splitOn_flatMap (f := String.utf8EncodeChar) (b := 10) (by decide)
    (fun c => eq_of_mem_utf8EncodeChar) text.toList
  rw [Feed.ofBytes, hbytes, hsplit, decodePieces_utf8]
  rfl

end TextTables
