import StepLocator.Proofs.Text.Decoding
import StepLocator.Text.Lines

/-!
Cutting at line ends. What is cut are characters or octets: at every line feed, at every carriage
return, and only once at the two in a row. The pieces are determined by that, for a text they are
its lines, and the octets of a text are cut into the octets of its lines.
-/
namespace StepLocator

section

variable {α : Type} {ret feed : α}

def HoldsNoEnd (ret feed : α) (piece : List α) : Prop := ret ∉ piece ∧ feed ∉ piece

/-- The ends of lines, with what is behind them: a carriage return and a line feed, a line feed
alone, or a carriage return that no line feed follows. -/
inductive EndsLine (ret feed : α) : List α → List α → Prop
  | both (rest : List α) : EndsLine ret feed [ret, feed] rest
  | feed (rest : List α) : EndsLine ret feed [feed] rest
  | ret {rest : List α} (alone : rest.head? ≠ some feed) : EndsLine ret feed [ret] rest

/-- The pieces of a list between the ends of its lines; the last piece has no end behind it. -/
inductive CutAtEnds (ret feed : α) : List α → List (List α) → Prop
  | last {piece : List α} (clear : HoldsNoEnd ret feed piece) : CutAtEnds ret feed piece [piece]
  | more {piece mark rest : List α} {pieces : List (List α)} (clear : HoldsNoEnd ret feed piece)
      (ends : EndsLine ret feed mark rest) (further : CutAtEnds ret feed rest pieces) :
      CutAtEnds ret feed (piece ++ (mark ++ rest)) (piece :: pieces)

theorem holdsNoEnd_nil : HoldsNoEnd ret feed [] := ⟨List.not_mem_nil, List.not_mem_nil⟩

theorem HoldsNoEnd.cons {c : α} {piece : List α} (h : HoldsNoEnd ret feed piece) (hret : c ≠ ret)
    (hfeed : c ≠ feed) : HoldsNoEnd ret feed (c :: piece) := by
  simp only [HoldsNoEnd, List.mem_cons, not_or]
  exact ⟨⟨hret.symm, h.1⟩, hfeed.symm, h.2⟩

theorem EndsLine.exists_cons {mark rest : List α} (h : EndsLine ret feed mark rest) :
    ∃ c more, mark = c :: more ∧ (c = ret ∨ c = feed) := by
  cases h with
  | both => exact ⟨ret, [feed], rfl, .inl rfl⟩
  | feed => exact ⟨feed, [], rfl, .inr rfl⟩
  | ret => exact ⟨ret, [], rfl, .inl rfl⟩

theorem HoldsNoEnd.notMem {piece : List α} {c : α} (h : HoldsNoEnd ret feed piece)
    (hc : c = ret ∨ c = feed) : c ∉ piece := by
  rcases hc with rfl | rfl
  · exact h.1
  · exact h.2

theorem append_cons_inj_of_notMem {piece piece' rest rest' : List α} {c c' : α} (h : c' ∉ piece)
    (h' : c ∉ piece') (heq : piece ++ c :: rest = piece' ++ c' :: rest') :
    piece = piece' ∧ c :: rest = c' :: rest' := by
  rcases List.append_eq_append_iff.mp heq with ⟨more, rfl, hmore⟩ | ⟨more, rfl, hmore⟩
  · cases more with
    | nil => exact ⟨by simp, hmore⟩
    | cons d more =>
      obtain rfl := (List.cons.inj hmore).1
      exact absurd (by simp) h'
  · cases more with
    | nil => exact ⟨by simp, hmore.symm⟩
    | cons d more =>
      obtain rfl := (List.cons.inj hmore).1
      exact absurd (by simp) h

theorem EndsLine.unique (hne : ret ≠ feed) {mark mark' rest rest' : List α}
    (h : EndsLine ret feed mark rest) (h' : EndsLine ret feed mark' rest')
    (heq : mark ++ rest = mark' ++ rest') : mark = mark' ∧ rest = rest' := by
  cases h with
  | both =>
    cases h' with
    | both => simpa using heq
    | feed => exact absurd (List.cons.inj heq).1 hne
    | ret alone =>
      obtain rfl := (List.cons.inj heq).2
      exact absurd rfl alone
  | feed =>
    cases h' with
    | both => exact absurd (List.cons.inj heq).1 hne.symm
    | feed => simpa using heq
    | ret => exact absurd (List.cons.inj heq).1 hne.symm
  | ret alone =>
    cases h' with
    | both =>
      obtain rfl := (List.cons.inj heq).2
      exact absurd rfl alone
    | feed => exact absurd (List.cons.inj heq).1 hne
    | ret => simpa using heq

namespace CutAtEnds

variable {t : List α} {pieces pieces' : List (List α)}

theorem holdsNoEnd (h : CutAtEnds ret feed t pieces) {piece : List α} (hpiece : piece ∈ pieces) :
    HoldsNoEnd ret feed piece := by
  induction h with
  | last clear =>
    obtain rfl := List.mem_singleton.mp hpiece
    exact clear
  | more clear _ _ ih =>
    rcases List.mem_cons.mp hpiece with rfl | hpiece
    · exact clear
    · exact ih hpiece

theorem cons (h : CutAtEnds ret feed t pieces) {c : α} (hret : c ≠ ret) (hfeed : c ≠ feed) :
    ∃ piece rest, pieces = piece :: rest ∧ CutAtEnds ret feed (c :: t) ((c :: piece) :: rest) := by
  cases h with
  | last clear => exact ⟨_, _, rfl, .last (clear.cons hret hfeed)⟩
  | more clear ends further => exact ⟨_, _, rfl, .more (clear.cons hret hfeed) ends further⟩

theorem exists_pieces (ret feed : α) (t : List α) : ∃ pieces, CutAtEnds ret feed t pieces := by
  induction hn : t.length using Nat.strongRecOn generalizing t with
  | ind n ih =>
    cases t with
    | nil => exact ⟨_, .last holdsNoEnd_nil⟩
    | cons c rest =>
      subst hn
      obtain ⟨pieces, hrest⟩ := ih rest.length (Nat.lt_succ_self _) rest rfl
      by_cases hfeed : c = feed
      · subst hfeed
        exact ⟨_, .more holdsNoEnd_nil (.feed rest) hrest⟩
      by_cases hret : c = ret
      · subst hret
        by_cases alone : rest.head? = some feed
        · obtain ⟨more, rfl⟩ := List.head?_eq_some_iff.mp alone
          obtain ⟨pieces, hmore⟩ := ih more.length (by simp only [List.length_cons]; omega) more rfl
          exact ⟨_, .more holdsNoEnd_nil (.both more) hmore⟩
        · exact ⟨_, .more holdsNoEnd_nil (.ret alone) hrest⟩
      · obtain ⟨piece, more, -, hcut⟩ := hrest.cons hret hfeed
        exact ⟨_, hcut⟩

theorem unique (hne : ret ≠ feed) (h : CutAtEnds ret feed t pieces)
    (h' : CutAtEnds ret feed t pieces') : pieces = pieces' := by
  induction h generalizing pieces' with
  | last clear =>
    cases h' with
    | last => rfl
    | more _ ends _ =>
      obtain ⟨c, more, rfl, hc⟩ := ends.exists_cons
      exact absurd (by simp) (clear.notMem hc)
  | @more piece mark rest pieces clear ends further ih =>
    obtain ⟨c, tail, hmark, hc⟩ := ends.exists_cons
    generalize ht : piece ++ (mark ++ rest) = t at h'
    cases h' with
    | last clear' =>
      refine absurd ?_ (clear'.notMem hc)
      rw [← ht, hmark]
      simp
    | @more piece' mark' rest' pieces' clear' ends' further' =>
      obtain ⟨c', tail', hmark', hc'⟩ := ends'.exists_cons
      rw [hmark, hmark', List.cons_append, List.cons_append] at ht
      obtain ⟨rfl, hrest⟩ := append_cons_inj_of_notMem (clear.notMem hc') (clear'.notMem hc) ht
      rw [← List.cons_append, ← List.cons_append, ← hmark, ← hmark'] at hrest
      obtain ⟨rfl, rfl⟩ := ends.unique hne ends' hrest
      rw [ih further']

theorem getLast?_of_endsLine (hne : ret ≠ feed) (h : CutAtEnds ret feed t pieces) {mark : α}
    (hmark : mark = ret ∨ mark = feed) (hlast : t.getLast? = some mark) :
    pieces.getLast? = some [] := by
  induction h with
  | last clear => exact absurd (List.mem_of_getLast? hlast) (clear.notMem hmark)
  | @more piece end' rest pieces clear ends further ih =>
    have hne' : pieces.getLast? = some [] := by
      cases rest with
      | nil =>
        obtain rfl := further.unique hne (.last holdsNoEnd_nil)
        rfl
      | cons c rest =>
        exact ih (by simpa [List.getLast?_append, List.getLast?_cons] using hlast)
    cases pieces with
    | nil => cases hne'
    | cons next others => rwa [List.getLast?_cons_cons]

end CutAtEnds
end

namespace Text

/-- The lines of a text are its pieces between the ends of its lines. -/
theorem cutAtEnds_lines (text : Text) :
    CutAtEnds '\r' '\n' text (lines (unifyLineEnds text)) := by
  fun_induction unifyLineEnds text with
  | case1 => exact .last holdsNoEnd_nil
  | case2 rest ih =>
    have hcut := CutAtEnds.more holdsNoEnd_nil (.both rest) ih
    simpa [lines, List.splitOn_cons_eq_if_modifyHead] using hcut
  | case3 rest hnone ih =>
    have alone : rest.head? ≠ some '\n' := fun hhead => by
      obtain ⟨more, hmore⟩ := List.head?_eq_some_iff.mp hhead
      exact hnone more hmore
    have hcut := CutAtEnds.more holdsNoEnd_nil (.ret alone) ih
    simpa [lines, List.splitOn_cons_eq_if_modifyHead] using hcut
  | case4 c rest hnone hret ih =>
    by_cases hfeed : c = '\n'
    · subst hfeed
      have hcut := CutAtEnds.more holdsNoEnd_nil (.feed rest) ih
      simpa [lines, List.splitOn_cons_eq_if_modifyHead] using hcut
    · obtain ⟨piece, more, hpieces, hcut⟩ := ih.cons hret hfeed
      rw [lines] at hpieces
      simpa [lines, List.splitOn_cons_eq_if_modifyHead, hfeed, hpieces] using hcut

theorem cutAtEnds_iff {text : Text} {pieces : List Text} :
    CutAtEnds '\r' '\n' text pieces ↔ pieces = lines (unifyLineEnds text) :=
  ⟨fun h => h.unique (by decide) (cutAtEnds_lines text), fun h => h ▸ cutAtEnds_lines text⟩

variable {text part : Text}

theorem eq_nil_of_begins_lineFeed {rest : Text} (h : part <+: '\n' :: rest) (hpart : '\n' ∉ part) :
    part = [] := by
  cases part with
  | nil => rfl
  | cons c part =>
    obtain ⟨rfl, -⟩ := List.cons_prefix_cons.mp h
    exact absurd List.mem_cons_self hpart

theorem begins_of_unifyLineEnds (h : part <+: text.unifyLineEnds) (hpart : '\n' ∉ part) :
    part <+: text := by
  fun_induction unifyLineEnds text generalizing part with
  | case1 => exact h
  | case2 rest ih =>
    rw [eq_nil_of_begins_lineFeed h hpart]
    exact List.nil_prefix
  | case3 rest hrest ih =>
    rw [eq_nil_of_begins_lineFeed h hpart]
    exact List.nil_prefix
  | case4 c rest hc hend ih =>
    cases part with
    | nil => exact List.nil_prefix
    | cons d part =>
      obtain ⟨rfl, hrest⟩ := List.cons_prefix_cons.mp h
      exact List.cons_prefix_cons.mpr
        ⟨rfl, ih hrest fun hmem => hpart (List.mem_cons_of_mem _ hmem)⟩

theorem infix_of_unifyLineEnds (h : part <:+: text.unifyLineEnds) (hpart : '\n' ∉ part) :
    part <:+: text := by
  fun_induction unifyLineEnds text with
  | case1 => exact h
  | case2 rest ih =>
    obtain hbegins | hrest := List.infix_cons_iff.mp h
    · rw [eq_nil_of_begins_lineFeed hbegins hpart]
      exact List.nil_infix
    · exact (ih hrest).trans ⟨['\r', '\n'], [], by simp⟩
  | case3 rest hne ih =>
    obtain hbegins | hrest := List.infix_cons_iff.mp h
    · rw [eq_nil_of_begins_lineFeed hbegins hpart]
      exact List.nil_infix
    · exact List.infix_cons (ih hrest)
  | case4 c rest hc hend ih =>
    obtain hbegins | hrest := List.infix_cons_iff.mp h
    · refine (begins_of_unifyLineEnds ?_ hpart).isInfix
      rwa [unifyLineEnds]
      all_goals assumption
    · exact List.infix_cons (ih hrest)

theorem countP_unifyLineEnds {p : Char → Bool} (hcr : p '\r' = false) (hlf : p '\n' = false)
    (text : Text) : text.unifyLineEnds.countP p = text.countP p := by
  fun_induction unifyLineEnds text with
  | case1 => rfl
  | case2 rest ih => simp [hcr, hlf, ih]
  | case3 rest hrest ih => simp [hcr, hlf, ih]
  | case4 c rest hc hend ih => simp [List.countP_cons, ih]

end Text

/-! ### Octets -/

namespace Utf8

variable {text : Text} {lines : List Text}

theorem holdsNoEnd_encode_iff :
    HoldsNoEnd (13 : UInt8) 10 (encode text) ↔ HoldsNoEnd '\r' '\n' text :=
  and_congr (not_congr (mem_encode_iff (show '\r'.toNat < 0x80 by decide)))
    (not_congr (mem_encode_iff (show '\n'.toNat < 0x80 by decide)))

theorem head?_encode_ne_iff : (encode text).head? ≠ some 10 ↔ text.head? ≠ some '\n' :=
  not_congr (head?_encode_iff (show '\n'.toNat < 0x80 by decide))

theorem endsLine_encode {mark rest : Text} (h : EndsLine '\r' '\n' mark rest) :
    EndsLine (13 : UInt8) 10 (encode mark) (encode rest) := by
  cases h with
  | both => exact .both _
  | feed => exact .feed _
  | ret alone => exact .ret (head?_encode_ne_iff.mpr alone)

theorem exists_of_endsLine_encode {mark : Bytes} {rest : Text}
    (h : EndsLine (13 : UInt8) 10 mark (encode rest)) :
    ∃ written, mark = encode written ∧ EndsLine '\r' '\n' written rest := by
  generalize hbytes : encode rest = bytes at h
  cases h with
  | both => exact ⟨['\r', '\n'], rfl, .both _⟩
  | feed => exact ⟨['\n'], rfl, .feed _⟩
  | ret alone => exact ⟨['\r'], rfl, .ret (head?_encode_ne_iff.mp (hbytes ▸ alone))⟩

theorem cutAtEnds_encode (h : CutAtEnds '\r' '\n' text lines) :
    CutAtEnds (13 : UInt8) 10 (encode text) (lines.map encode) := by
  induction h with
  | last clear => exact .last (holdsNoEnd_encode_iff.mpr clear)
  | more clear ends _ ih =>
    rw [encode_append, encode_append]
    exact .more (holdsNoEnd_encode_iff.mpr clear) (endsLine_encode ends) ih

theorem exists_text_of_cutAtEnds {content : Bytes}
    (h : CutAtEnds (13 : UInt8) 10 content (lines.map encode)) :
    ∃ text, content = encode text ∧ CutAtEnds '\r' '\n' text lines := by
  generalize hpieces : lines.map encode = pieces at h
  induction h generalizing lines with
  | last clear =>
    obtain ⟨line, rfl, rfl⟩ := List.map_eq_singleton_iff.mp hpieces
    exact ⟨line, rfl, .last (holdsNoEnd_encode_iff.mp clear)⟩
  | more clear ends _ ih =>
    obtain ⟨line, others, rfl, rfl, hothers⟩ := List.map_eq_cons_iff.mp hpieces
    obtain ⟨rest, rfl, hrest⟩ := ih hothers
    obtain ⟨mark, rfl, hmark⟩ := exists_of_endsLine_encode ends
    refine ⟨line ++ (mark ++ rest), by rw [encode_append, encode_append], ?_⟩
    exact .more (holdsNoEnd_encode_iff.mp clear) hmark hrest

/-- A text has some lines exactly if its octets are cut into theirs. -/
theorem cutAtEnds_map_encode_iff {content : Bytes} :
    CutAtEnds (13 : UInt8) 10 content (lines.map encode) ↔
      ∃ text, content = encode text ∧ CutAtEnds '\r' '\n' text lines :=
  ⟨exists_text_of_cutAtEnds, fun ⟨_, hcontent, h⟩ => hcontent ▸ cutAtEnds_encode h⟩

theorem map_decode_eq_iff {pieces : List Bytes} :
    pieces.map decode = lines.map .ok ↔ pieces = lines.map encode := by
  induction pieces generalizing lines with
  | nil => cases lines <;> simp
  | cons piece rest ih =>
    cases lines with
    | nil => simp
    | cons line others => simp [decode_eq_ok_iff, ih]

end Utf8
end StepLocator
