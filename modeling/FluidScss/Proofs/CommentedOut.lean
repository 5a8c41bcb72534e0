/-
FluidScss/Proofs/CommentedOut.lean

Comments between statements.  A comment put at the beginning of a sheet, or behind
one of its braces or semicolons, is not seen: the sheet has the same tree but for
the lines, and the same overrides (`comment_unseen`).

There is one exception.  An address is read up to its parenthesis, whatever stands
in it, and two slashes in it open no comment.  So if a statement in front of the
comment leaves an address open, and the comment holds a parenthesis, the comment is
read as a part of the address (`comment_in_address`).
-/
import FluidScss.Proofs.Ignored
import FluidScss.Proofs.Placement

namespace FluidScss

open Outline Node

variable {source comment : Text} {nodes : List Node} {read left : List Lexeme}

/-- The text of lexemes, with a comment between the first and the others. -/
def commented (read : List Lexeme) (comment : Text) (left : List Lexeme) : Text :=
  read.flatMap Lexeme.source ++ (comment ++ left.flatMap Lexeme.source)

/-- Drafts of trees that are the same but for the lines. -/
theorem draftsOfList_of_relineAll_eq {nodes' : List Node} {f : Nat → Nat}
    (h : relineAll f nodes' = relineAll f nodes) (m : Marker) (parents : List Text) :
    draftsOfList m parents nodes' = draftsOfList m parents nodes := by
  rw [← draftsOfList_reline m f, h, draftsOfList_reline]

/-- The lexemes in front of a comment are those of the sheet, unless it closes an
address that is left open among them. -/
theorem isPrefix_lexemes_commented_iff (hlex : lexemes source = (read ++ left, []))
    (hends : EndsStatement read) :
    read <+: (lexemes (commented read comment left)).1 ↔ ClosesNone read comment := by
  have hread : (lexemes source).1 = read ++ left := congrArg Prod.fst hlex
  have hsource := source_lexemes source
  rw [hlex, List.append_nil, List.flatMap_append] at hsource
  have hbehind := closesNone_behind (by rwa [hsource])
  rw [commented, isPrefix_lexemes_change_iff hread hends, closesNone_append,
    and_iff_left hbehind]

/-- The tokens of a sheet with a comment are those of the sheet. -/
theorem tokens_commented (hlex : lexemes source = (read ++ left, [])) (hends : EndsStatement read)
    (hc : IsComment comment) (hnone : ClosesNone read comment) :
    (lexemes (commented read comment left)).2 = []
      ∧ (significant {} (lexemes (commented read comment left)).1).map Prod.snd
        = (significant {} (lexemes source).1).map Prod.snd := by
  have hread : (lexemes source).1 = read ++ left := congrArg Prod.fst hlex
  obtain ⟨rest, hsplit, hrest⟩ := exists_of_lexemes hread
  obtain rfl : rest = left.flatMap Lexeme.source := by
    have hsource := source_lexemes source
    rw [hlex, List.append_nil, List.flatMap_append, hsplit, List.append_cancel_left_eq] at hsource
    exact hsource.symm
  have hbehind := closesNone_behind (hsplit ▸ hread)
  have hchange := lexemes_change hread hends (closesNone_append.mpr ⟨hnone, hbehind⟩)
  rw [hlex] at hrest
  rw [commented, hchange]
  refine ⟨by rw [hc.ignored.whole, hrest], ?_⟩
  rw [significant_append, hc.ignored.tokens, hrest, hread, significant_append, List.map_append,
    List.map_append]
  exact congrArg _ (map_snd_significant _ _ left)

/-- **Comments are not seen.**  A comment in front of the lexemes of a sheet, or
behind a brace or a semicolon among them, leaves the sheet with the same tree but
for the lines and with the same overrides, unless it closes an address that is left
open in front of it.  Then the lexemes in front of it are not those of the sheet. -/
theorem comment_unseen (h : parseSheet source = .ok nodes)
    (hlex : lexemes source = (read ++ left, [])) (hends : EndsStatement read)
    (hc : IsComment comment) :
    (ClosesNone read comment →
        ∃ nodes', parseSheet (commented read comment left) = .ok nodes'
          ∧ relineAll (fun _ => 0) nodes' = relineAll (fun _ => 0) nodes
          ∧ ∀ m start, (treeDrafts m (commented read comment left)).map (number start)
            = (treeDrafts m source).map (number start))
      ∧ (read <+: (lexemes (commented read comment left)).1 ↔ ClosesNone read comment) := by
  refine ⟨fun hnone => ?_, isPrefix_lexemes_commented_iff hlex hends⟩
  obtain ⟨hwhole, htokens⟩ := tokens_commented hlex hends hc hnone
  obtain ⟨nodes', hnodes', hlines⟩ := parseSheet_of_sameTokens h hwhole htokens
  refine ⟨nodes', hnodes', hlines, fun m start => ?_⟩
  rw [treeDrafts, treeDrafts, h, hnodes']
  exact congrArg (fun ds => Except.ok (number start ds))
    (draftsOfList_of_relineAll_eq hlines m rootSelectors)

/-- Behind an address that is left open, a comment without a parenthesis. -/
theorem comment_unseen_behind_open_address :
    parseSheet ".a\x7bb:url(x;c:d\x7d"
        = .ok [.block ".a" [".a"] [.declaration "b" "url(x" false 1, .declaration "c" "d" false 1]
          (some 1)]
      ∧ ∃ nodes', parseSheet ".a\x7bb:url(x;// (\nc:d\x7d" = .ok nodes'
        ∧ relineAll (fun _ => 0) nodes' = relineAll (fun _ => 0)
          [.block ".a" [".a"] [.declaration "b" "url(x" false 1, .declaration "c" "d" false 1]
            (some 1)]
        ∧ ∀ m start, (treeDrafts m ".a\x7bb:url(x;// (\nc:d\x7d").map (number start)
          = (treeDrafts m ".a\x7bb:url(x;c:d\x7d").map (number start) := by
  have hparse : parseSheet ".a\x7bb:url(x;c:d\x7d"
      = .ok [.block ".a" [".a"] [.declaration "b" "url(x" false 1, .declaration "c" "d" false 1]
        (some 1)] := by cbv
  have hlex : lexemes ".a\x7bb:url(x;c:d\x7d"
      = ([.chunk ".a", .openBrace, .chunk "b:url(x", .semicolon]
        ++ [.chunk "c:d", .closeBrace], []) := by cbv
  have hends : EndsStatement [.chunk ".a", .openBrace, .chunk "b:url(x", .semicolon] := by
    rintro l ⟨⟩
    exact .inr (.inr rfl)
  have hc : IsComment (("//" : Text) ++ " (" ++ "\n") := .line (by decide)
  exact ⟨hparse, (comment_unseen hparse hlex hends hc).1 fun _ _ _ => by decide⟩

/-- Behind an address that is left open, a comment with a parenthesis: the call in
the comment is read as a part of the declaration, and replaced. -/
theorem comment_in_address :
    (∃ nodes, parseSheet ".a\x7bb:url(x;\x7d" = .ok nodes)
      ∧ lexemes ".a\x7bb:url(x;\x7d"
        = ([.chunk ".a", .openBrace, .chunk "b:url(x", .semicolon] ++ [.closeBrace], [])
      ∧ EndsStatement [.chunk ".a", .openBrace, .chunk "b:url(x", .semicolon]
      ∧ IsComment "/*r.resp(1,2,h)*/"
      ∧ (treeDrafts ⟨"r", "resp"⟩ (commented [.chunk ".a", .openBrace, .chunk "b:url(x", .semicolon]
          "/*r.resp(1,2,h)*/" [.closeBrace])).map (number 0)
        ≠ (treeDrafts ⟨"r", "resp"⟩ ".a\x7bb:url(x;\x7d").map (number 0) := by
  have hc : IsComment (("/*" : Text) ++ "r.resp(1,2,h)" ++ "*/") := .block (by decide)
  refine ⟨⟨_, by cbv⟩, by cbv, ?_, hc, ?_⟩
  · rintro l ⟨⟩
    exact .inr (.inr rfl)
  · have hplain : (treeDrafts ⟨"r", "resp"⟩ ".a\x7bb:url(x;\x7d").map (number 0) = .ok [] := by cbv
    have hread : (treeDrafts ⟨"r", "resp"⟩ (commented [.chunk ".a", .openBrace, .chunk "b:url(x",
        .semicolon] "/*r.resp(1,2,h)*/" [.closeBrace])).map (number 0)
          = .ok [⟨⟨".a", "b", "url(x;/*r.clamp_mb(2, r.min_px(2, h, mobile))*/"⟩, 0⟩] := by cbv
    rw [hplain, hread]
    intro h
    cases h

end FluidScss
