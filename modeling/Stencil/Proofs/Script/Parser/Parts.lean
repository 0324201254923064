import Mathlib.Data.List.Chain
import Stencil.Proofs.Script.Parser.Levels
import Stencil.Text.Bytes

/-! # A source and its parts

`splitDeclarations` gives the statements of a source with the parts of the text that they were read
from.  The text from the first token on is **sliced** into these parts (`Sliced`): each one starts
where the one before it stops, the last one stops at the end, and **each part read on its own is the
one statement that it is paired with** (`exists_sliced`).  A part ends in front of the first token of
the next one, so the comments between two statements belong to the first of them.
-/
namespace Stencil.Text

theorem utf8ByteSize_ofList (cs : List Char) :
    (String.ofList cs).utf8ByteSize = byteLength cs := by
  induction cs with
  | nil => rfl
  | cons c cs ih =>
    rw [String.ofList_cons, String.utf8ByteSize_append, ih, byteLength_cons,
      String.utf8ByteSize_singleton]

/-- The bytes between two places are those of the characters between them. -/
theorem fromUTF8?_extract (a w b : List Char) :
    String.fromUTF8? ((String.ofList (a ++ (w ++ b))).toUTF8.extract (byteLength a)
      (byteLength a + byteLength w)) = some (String.ofList w) := by
  have hbytes : (String.ofList (a ++ (w ++ b))).toUTF8.extract (byteLength a)
      (byteLength a + byteLength w) = (String.ofList w).toUTF8 := by
    rw [← utf8ByteSize_ofList, ← utf8ByteSize_ofList, ← String.size_toByteArray,
      ← String.size_toByteArray]
    simp only [String.toUTF8, String.ofList_append, String.toByteArray_append]
    rw [ByteArray.extract_append, Nat.sub_self, Nat.add_sub_cancel_left,
      ByteArray.extract_append_eq_left rfl, ByteArray.extract_eq_empty_iff.mpr (by omega),
      ByteArray.empty_append]
  rw [hbytes]
  exact dif_pos (String.ofList w).isValidUTF8

end Stencil.Text

namespace Stencil.Script
open Stencil.Text (byteLength)

/-- From a place on the text falls into parts, each of which reads as one statement. -/
inductive Sliced : Place → List Located → Prop where
  | done {o : Nat} : Sliced ⟨[], o⟩ []
  | next {p q : Place} {w : List Char} {s : Stmt} {parts : List Located} (takes : p.Takes w q)
      (reads : parseDeclarations (String.ofList w) = .ok [s]) (rest : Sliced q parts) :
      Sliced p (⟨s, p.offset, q.offset⟩ :: parts)

namespace Parser
variable {ctx : ParseContext} {ts r : List Token}

theorem run_program (done : List (Stmt × Nat × Nat)) (fuel : Nat) :
    program done (fuel + 1) ctx ts =
      if atEnd ts then .ok (done.reverse, ts)
      else (do
        let start ← offset
        let s ← (grammar maxNesting).statement
        program ((s, start, ← offset) :: done) fuel : Parser _) ctx ts := by
  rw [program, run_ahead]
  split <;> rfl

theorem atEnd_cons {t : Token} (h : t.kind ≠ .eof) : atEnd (t :: ts) = false := by
  unfold atEnd
  split
  · exact absurd (by assumption) h
  · rfl

/-- Statement after statement, a phrase is read up to the end of the text. -/
theorem phrase_of_program {fuel : Nat} {done out : List (Stmt × Nat × Nat)}
    (hfuel : ts.length < fuel) (h : program done fuel ctx ts = .ok (out, r)) :
    ∃ u, ts = u ++ r ∧ Phrase u ∧ atEnd r = true := by
  induction fuel generalizing ts done with
  | zero => exact absurd hfuel (Nat.not_lt_zero _)
  | succ fuel ih =>
    rw [run_program] at h
    split at h
    · rename_i hend
      cases h
      exact ⟨[], rfl, .nil, hend⟩
    · obtain ⟨start, hstart⟩ := offset_ok ctx ts
      rw [run_bind_of_ok hstart] at h
      obtain ⟨s, ts', hs, hrest⟩ := run_bind_ok h
      obtain ⟨u, rfl, hu, hphrase⟩ := (reads_grammar maxNesting).statement _ _ _ _ hs
      obtain ⟨stop, hstop⟩ := offset_ok ctx ts'
      rw [run_bind_of_ok hstop] at hrest
      rw [List.length_append] at hfuel
      obtain ⟨v, rfl, hphrase', hend⟩ := ih (by omega) hrest
      exact ⟨u ++ v, (List.append_assoc u v r).symm, hphrase.append hphrase', hend⟩

/-- **The braces of a source that parses are balanced.** -/
theorem balanced_of_run {shorthand : Bool} {source : String} {out : List (Stmt × Nat × Nat)}
    (h : run shorthand source = .ok out) : ∃ ts, tokenize source = .ok ts ∧ Balanced ts := by
  obtain ⟨ts, hts, h⟩ := bind_eq_ok.mp h
  obtain ⟨⟨statements, r⟩, hprogram, -⟩ := bind_eq_ok.mp h
  obtain ⟨u, rfl, hphrase, hend⟩ := phrase_of_program (Nat.lt_succ_self _) hprogram
  obtain ⟨q, -, hlexed⟩ := tokenize_eq_ok.mp hts
  obtain ⟨init, o, hinit, hne⟩ := hlexed.exists_init
  obtain ⟨-, rfl⟩ := eq_of_atEnd hne hinit.symm hphrase.noEof hend
  exact ⟨_, hts, hphrase.balanced.append fun _ => rfl⟩

/-- The statement in front of a place, read from its part alone, is all that there is. -/
theorem run_part {s : Stmt} {u u' : List Token} {o' : Nat} {w : List Char}
    (hs : (grammar maxNesting).statement ctx (u ++ r) = .ok (s, r)) (hu : u ≠ [])
    (hpiece : Piece u) (hr : r ≠ []) (hsize : (u ++ r).length ≤ ctx.size)
    (hshort : ctx.shorthand = true) (hlexed : Scan.Lexed ⟨w, 0⟩ (u' ++ [⟨.eof, o'⟩]))
    (hkinds : u'.map Token.kind = u.map Token.kind) :
    parseDeclarations (String.ofList w) = .ok [s] := by
  have htokens : tokenize (String.ofList w) = .ok (u' ++ [⟨.eof, o'⟩]) := by
    refine tokenize_eq_ok.mpr ⟨⟨w, 0⟩, ?_, hlexed⟩
    rw [String.toList_ofList]
    exact hlexed.bare
  let c : Cut :=
    { whole := ctx
      part := ⟨0, true, (u' ++ [Token.mk .eof o']).length⟩
      behind := r
      ending := [⟨.eof, o'⟩]
      shorthand := hshort.symm
      behind_ne := hr
      ends := kindAt_drop_eof o'
      whole_fits := Nat.le_trans (List.length_append ▸ Nat.le_add_left _ _) hsize
      part_fits := List.length_append ▸ Nat.le_add_left _ _ }
  have hnear : c.Near (u ++ c.behind) (u' ++ c.ending) :=
    Cut.near_append hkinds hpiece hsize (Nat.le_refl _)
  obtain ⟨r', hr', hnear'⟩ :=
    ((follows_grammar maxNesting).statement c).sim _ _ hnear s r hs (Nat.le_refl _)
  obtain rfl := hnear'.eq_ending rfl
  obtain ⟨t, u', rfl⟩ : ∃ t v, u' = t :: v := by
    cases u' with
    | nil => exact absurd (List.map_eq_nil_iff.mp hkinds.symm) hu
    | cons t v => exact ⟨t, v, rfl⟩
  have ht : t.kind ≠ .eof := by
    cases u with
    | nil => exact absurd rfl hu
    | cons x u =>
      obtain ⟨hkind, -⟩ := List.cons.inj hkinds
      rw [hkind]
      exact hpiece.noEof x List.mem_cons_self
  have htexts : ∀ n, u'.length < n → ∃ a b, program [] (n + 1) c.part ((t :: u') ++ c.ending) =
      .ok ([(s, a, b)], c.ending) := by
    intro n hn
    obtain ⟨a, ha⟩ := offset_ok c.part ((t :: u') ++ c.ending)
    obtain ⟨b, hb⟩ := offset_ok c.part c.ending
    refine ⟨a, b, ?_⟩
    rw [run_program, List.cons_append, if_neg (by rw [atEnd_cons ht]; exact Bool.false_ne_true)]
    refine (run_bind_of_ok ha).trans ((run_bind_of_ok hr').trans ((run_bind_of_ok hb).trans ?_))
    obtain ⟨n, rfl⟩ := Nat.exists_eq_add_one_of_ne_zero (Nat.ne_zero_of_lt hn)
    exact run_program _ n
  obtain ⟨a, b, hprogram⟩ := htexts _ (Nat.lt_of_lt_of_le (Nat.lt_succ_self _)
    (List.length_append ▸ Nat.le_add_right (t :: u').length c.ending.length))
  unfold parseDeclarations run
  rw [htokens]
  refine bind_eq_ok.mpr ⟨[(s, a, b)], bind_eq_ok.mpr ⟨_, rfl, ?_⟩, rfl⟩
  exact bind_eq_ok.mpr ⟨_, hprogram, rfl⟩

/-- **The statements of a source come with the parts that they are read from.** -/
theorem exists_sliced {p : Place} {fuel : Nat} {done out : List (Stmt × Nat × Nat)}
    (hlexed : Scan.Lexed p ts) (hfuel : ts.length < fuel) (hsize : ts.length ≤ ctx.size)
    (hbase : ctx.base = 0) (hshort : ctx.shorthand = true)
    (h : program done fuel ctx ts = .ok (out, r)) :
    ∃ rest, out = done.reverse ++ rest ∧ Sliced p (rest.map fun (s, a, b) => ⟨s, a, b⟩) := by
  induction fuel generalizing p ts done with
  | zero => exact absurd hfuel (Nat.not_lt_zero _)
  | succ fuel ih =>
    have hoffset {p : Place} {ts : List Token} (hlexed : Scan.Lexed p ts) :
        offset ctx ts = .ok (p.offset, ts) := by
      cases ts with
      | nil => cases hlexed
      | cons t ts =>
        rw [← hlexed.head_offset, ← Nat.zero_add t.offset, ← hbase]
        rfl
    rw [run_program] at h
    split at h
    · rename_i hend
      cases h
      refine ⟨[], (List.append_nil _).symm, ?_⟩
      cases hlexed with
      | done => exact .done
      | next bare ne htoken =>
        rw [atEnd_cons (Scan.token_ne_eof htoken ne)] at hend
        cases hend
    · rw [run_bind_of_ok (hoffset hlexed)] at h
      obtain ⟨s, ts', hs, hrest⟩ := run_bind_ok h
      obtain ⟨u, rfl, hu, hphrase⟩ := (reads_grammar maxNesting).statement _ _ _ _ hs
      have hne : ts' ≠ [] := by
        rintro rfl
        obtain ⟨init, o, hinit, -⟩ := hlexed.exists_init
        rw [List.append_nil] at hinit
        exact hphrase.noEof _ (hinit ▸ List.mem_append_right _ List.mem_cons_self) rfl
      have hdot : ∀ t ∈ u.getLast?, t.kind ≠ .punctuator .dot := by
        intro t ht hkind
        have hstands := hphrase.stands t ht
        rw [hkind] at hstands
        cases hstands
      obtain ⟨w, q, htakes, hlexed', hpart⟩ := hlexed.part hne hdot
      rw [run_bind_of_ok (hoffset hlexed')] at hrest
      have hlen : ts'.length + 1 ≤ (u ++ ts').length := by
        rw [List.length_append]
        omega
      obtain ⟨rest, rfl, hsliced⟩ := ih hlexed' (by omega) (by omega) hrest
      obtain ⟨u', o', hlexed'', hkinds⟩ := hpart 0
      refine ⟨(s, p.offset, q.offset) :: rest, ?_, .next htakes ?_ hsliced⟩
      · rw [List.reverse_cons, List.append_assoc]
        rfl
      · have hpiece := hphrase.toPiece
        exact run_part hs (List.ne_nil_of_length_pos hu) hpiece hne hsize hshort hlexed'' hkinds

end Parser

namespace Sliced
variable {p : Place} {parts : List Located}

/-- The first part starts at the place where the slicing does. -/
theorem head_start (h : Sliced p parts) : ∀ part ∈ parts.head?, part.start = p.offset := by
  cases h with
  | done => exact nofun
  | next =>
    intro part hpart
    cases hpart
    rfl

/-- Each part starts where the one before it stops. -/
theorem consecutive (h : Sliced p parts) : parts.IsChain fun a b => a.stop = b.start := by
  induction h with
  | done => exact .nil
  | next takes reads rest ih =>
    exact ih.cons fun part hpart => (rest.head_start part hpart).symm

/-- The last part stops at the end of the text. -/
theorem last_stop (h : Sliced p parts) :
    ∀ part ∈ parts.getLast?, part.stop = p.offset + byteLength p.rest := by
  induction h with
  | done => exact nofun
  | @next p q w s parts takes reads rest ih =>
    intro part hpart
    have hlength : q.offset + byteLength q.rest = p.offset + byteLength p.rest := by
      rw [takes.offset, takes.rest, Text.byteLength_append, Nat.add_assoc]
    cases rest with
    | done =>
      cases hpart
      exact hlength
    | next => exact (ih part hpart).trans hlength

/-- Hence the end of the last part need not be set. -/
theorem closeLast_eq (h : Sliced p parts) :
    closeLast (p.offset + byteLength p.rest) parts = parts := by
  induction parts generalizing p with
  | nil => rfl
  | cons part parts ih =>
    cases parts with
    | nil =>
      rw [closeLast, ← h.last_stop part rfl]
    | cons part' parts =>
      cases h with
      | @next p q w s parts takes reads rest =>
        have hlength : q.offset + byteLength q.rest = p.offset + byteLength p.rest := by
          rw [takes.offset, takes.rest, Text.byteLength_append, Nat.add_assoc]
        rw [closeLast, ← hlength, ih rest]
        exact nofun

/-- **The text of a part reads as its statement**, and as nothing else. -/
theorem exists_text (h : Sliced p parts) {source : String} {a : List Char}
    (hsource : source.toList = a ++ p.rest) (hoffset : p.offset = byteLength a) :
    ∀ part ∈ parts, ∃ text, part.text? source = some text ∧
      parseDeclarations text = .ok [part.statement] := by
  induction h generalizing a with
  | done => exact List.forall_mem_nil _
  | @next p q w s parts takes reads rest ih =>
    refine List.forall_mem_cons.mpr ⟨⟨String.ofList w, ?_, reads⟩, ih (a := a ++ w) ?_ ?_⟩
    · have hbytes := Text.fromUTF8?_extract a w q.rest
      rw [← takes.rest, ← hsource, String.ofList_toList] at hbytes
      unfold Located.text?
      rw [takes.offset, hoffset]
      exact hbytes
    · rw [hsource, takes.rest, List.append_assoc]
    · rw [takes.offset, hoffset, Text.byteLength_append]

end Sliced

/-- **A source is sliced into the parts of its statements**, from its first token to its end. -/
theorem splitDeclarations_sliced {source : String} {parts : List Located}
    (h : splitDeclarations source = .ok parts) :
    ∃ a p ts, tokenize source = .ok ts ∧ ts.head?.map Token.offset = some p.offset ∧
      source.toList = a ++ p.rest ∧ p.offset = byteLength a ∧ Sliced p parts := by
  obtain ⟨out, hrun, hparts⟩ := Parser.bind_eq_ok.mp h
  cases hparts
  obtain ⟨ts, htokens, hrun⟩ := Parser.bind_eq_ok.mp hrun
  obtain ⟨⟨out', r⟩, hprogram, hout⟩ := Parser.bind_eq_ok.mp hrun
  cases hout
  obtain ⟨p, hblanks, hlexed⟩ := tokenize_eq_ok.mp htokens
  obtain ⟨a, htakes, -⟩ := Scan.trivia_again hblanks
  have hoffset : p.offset = byteLength a := htakes.offset.trans (Nat.zero_add _)
  have hhead : ts.head?.map Token.offset = some p.offset := by
    cases ts with
    | nil => cases hlexed
    | cons t ts => exact congrArg some hlexed.head_offset
  obtain ⟨rest, rfl, hsliced⟩ := Parser.exists_sliced hlexed (Nat.lt_succ_self _) (Nat.le_refl _)
    rfl rfl hprogram
  have hsource : source.toList = a ++ p.rest := htakes.rest
  have hsize : source.utf8ByteSize = p.offset + byteLength p.rest := by
    rw [← String.ofList_toList (s := source), Text.utf8ByteSize_ofList, hsource,
      Text.byteLength_append, hoffset]
  refine ⟨a, p, ts, htokens, hhead, hsource, hoffset, ?_⟩
  rw [hsize, hsliced.closeLast_eq]
  exact hsliced

end Stencil.Script
