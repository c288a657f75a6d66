import StepLocator.Path.Authority
import StepLocator.Proofs.Text.Percent

/-!
URIs of paths. Whichever way the escapes are decoded, before or after the scheme is cut off, the URI
of a path leads back to the text of the path; and the URI of an absolute path names no host.
-/
namespace StepLocator
namespace Uri

theorem withoutStart_append (start text : Text) :
    Text.withoutStart start (start ++ text) = text := by
  have hcut : start.isPrefixOf? (start ++ text) = some text := by
    induction start with
    | nil => rfl
    | cons c rest ih =>
      show (if (c == c) = true then rest.isPrefixOf? (rest ++ text) else none) = _
      rw [if_pos (beq_self_eq_true c), ih]
  rw [Text.withoutStart, hcut, Option.getD_some]

theorem folderPath_ofPath (p : Path) : folderPath (ofPath p) = Path.ofText p.toText := by
  rw [folderPath, ofPath, withoutStart_append, Percent.decode_encode]

theorem documentPath_ofPath (p : Path) : documentPath (ofPath p) = Path.ofText p.toText := by
  have hscheme : scheme.all Percent.isAscii = true := by decide
  have hescape : '%' ∉ scheme := by decide
  rw [documentPath, ofPath, Percent.decode_append_encode (List.all_eq_true.mp hscheme) hescape,
    withoutStart_append]

theorem toText_of_isAbsolute {p : Path} (h : p.isAbsolute = true) :
    ∃ rest, p.toText = '/' :: rest := by
  obtain ⟨anchor, names⟩ := p
  cases anchor with
  | here => simp [Path.isAbsolute] at h
  | root => exact ⟨Path.joinNames names, by simp [Path.toText, Anchor.toText]⟩
  | doubleRoot => exact ⟨'/' :: Path.joinNames names, by simp [Path.toText, Anchor.toText]⟩

theorem authority_ofPath {p : Path} (h : p.isAbsolute = true) : authority (ofPath p) = [] := by
  obtain ⟨rest, hrest⟩ := toText_of_isAbsolute h
  have hslash : (Utf8.encodeChar '/').flatMap Percent.encodeByte = ['/'] := by decide +kernel
  have hencode : Percent.encode p.toText = '/' :: Percent.encode rest := by
    rw [hrest, Percent.encode, Utf8.encode_cons, List.flatMap_append, hslash]
    rfl
  have hform : ofPath p = "file:///".toList ++ Percent.encode rest := by
    rw [ofPath, hencode]
    rfl
  have hclean : ∀ text, cleaned ("file:///".toList ++ text) =
      "file:///".toList ++ text.filter fun c => !isLeftOut c := fun _ => rfl
  have hbehind : ∀ text, behindScheme ("file:///".toList ++ text) = '/' :: '/' :: '/' :: text :=
    fun _ => rfl
  rw [authority, hform, hclean, hbehind]
  simp [endsAuthority]

theorem check_ofPath {p : Path} (h : p.isAbsolute = true) : check (ofPath p) = .ok () := by
  rw [check, authority_ofPath h]
  rfl

end Uri
end StepLocator
