import BridgeOperator.Carrier.Script
import BridgeOperator.Proofs.Carrier.RoundTrip
import BridgeOperator.Proofs.Yaml.Lines

/-!
What the shell takes a script for. A command with a here-document whose delimiter is quoted is given
the lines below it as they are, up to the first one that is exactly the delimiter. The document of a
configuration is given to it whole, whatever stands in the configuration, so that what the shell
goes on to run does not depend on it.
-/

namespace BridgeOperator

open Yaml

namespace Carrier

/-- A command with a here-document, as the shell takes it from a script. -/
structure HereDocument where
  /-- The line that starts it. -/
  command : String
  /-- What the command is given to read. -/
  body : String
  /-- The script that follows. -/
  rest : String
  deriving DecidableEq

namespace HereDocument

/-- The word in single quotes after `<<`. -/
def delimiter? : List Char → Option (List Char)
  | '<' :: '<' :: '\'' :: word => if '\'' ∈ word then some (word.takeWhile (· ≠ '\'')) else none
  | _ :: rest => delimiter? rest
  | [] => none

/-- Read a script that starts with a command with a here-document, which has to be closed. -/
def read? (script : String) : Option HereDocument :=
  match script.toList.splitOn '\n' with
  | [] => none
  | command :: lines =>
    (delimiter? command).bind fun word =>
      match lines.dropWhile (· ≠ word) with
      | [] => none
      | _ :: rest => some {
          command := .ofList command
          body := .ofList ((lines.takeWhile (· ≠ word)).flatMap (· ++ ['\n']))
          rest := .ofList (['\n'].intercalate rest) }

variable {command w word : List Char}

/-- Whole lines are the text they were taken from. -/
theorem flatMap_splitOn (w : List Char) :
    (w.splitOn '\n').flatMap (· ++ ['\n']) = w ++ ['\n'] := by
  induction w with
  | nil => rfl
  | cons x w ih =>
    obtain ⟨line, lines, hlines⟩ := List.exists_cons_of_ne_nil (List.splitOn_ne_nil '\n' w)
    rw [List.splitOn_cons_eq_if_modifyHead]
    rw [hlines] at ih ⊢
    split
    · next hx =>
      rw [beq_iff_eq.mp hx, List.flatMap_cons, ih]
      rfl
    · rw [List.modifyHead_cons, List.flatMap_cons, List.cons_append, List.cons_append,
        List.cons_append, ← ih, List.flatMap_cons]

/-- A document of whole lines none of which is the delimiter is the body, unchanged. -/
theorem read?_script (hcommand : '\n' ∉ command) (hword : delimiter? command = some word)
    (hfeed : '\n' ∉ word) (hlines : word ∉ w.splitOn '\n') (rest : List Char) :
    read? (.ofList (command ++ '\n' :: (w ++ '\n' :: (word ++ '\n' :: rest)))) =
      some ⟨.ofList command, .ofList (w ++ ['\n']), .ofList rest⟩ := by
  have hsplit : (command ++ '\n' :: (w ++ '\n' :: (word ++ '\n' :: rest))).splitOn '\n' =
      command :: (w.splitOn '\n' ++ word :: rest.splitOn '\n') := by
    rw [List.splitOn_append_cons_self_of_not_mem hcommand, List.splitOn_append_cons_self,
      List.splitOn_append_cons_self_of_not_mem hfeed]
  have hkept : ∀ line ∈ w.splitOn '\n', decide (line ≠ word) = true := by
    intro line hline
    rw [decide_eq_true_eq]
    rintro rfl
    exact hlines hline
  have htake : (w.splitOn '\n' ++ word :: rest.splitOn '\n').takeWhile (· ≠ word) =
      w.splitOn '\n' := by
    rw [List.takeWhile_append_of_pos hkept]
    simp
  have hdrop : (w.splitOn '\n' ++ word :: rest.splitOn '\n').dropWhile (· ≠ word) =
      word :: rest.splitOn '\n' := by
    rw [List.dropWhile_append_of_pos hkept]
    simp
  rw [read?, String.toList_ofList, hsplit]
  simp only [hword, Option.bind_some, hdrop, htake, flatMap_splitOn, List.intercalate_splitOn]

-- a line that is the delimiter would hand the rest of its document over to the shell
example : read? "cat <<'EOF'\na\n EOF\nEOF\nreboot\nEOF\n" =
    some ⟨"cat <<'EOF'", "a\n EOF\n", "reboot\nEOF\n"⟩ := by decide

/-- The first line starts like the text, and no other line starts with the mark. -/
theorem splitOn_of_unmarked {mark : Char} (h : Unmarked mark w) :
    ∃ line lines, w.splitOn '\n' = line :: lines ∧ (line.head? = none ∨ line.head? = w.head?) ∧
      ∀ l ∈ lines, l.head? ≠ some mark := by
  induction w with
  | nil => exact ⟨[], [], rfl, .inl rfl, nofun⟩
  | cons x w ih =>
    obtain ⟨hhead, hw⟩ := List.isChain_cons.mp h
    obtain ⟨line, lines, hsplit, hline, hlines⟩ := ih hw
    rw [List.splitOn_cons_eq_if_modifyHead, hsplit]
    split
    · next hx =>
      refine ⟨[], line :: lines, rfl, .inl rfl, List.forall_mem_cons.mpr ⟨fun hmark => ?_, hlines⟩⟩
      rcases hline with hnone | hsame
      · rw [hnone] at hmark
        cases hmark
      · exact hhead mark (hsame.symm.trans hmark) (beq_iff_eq.mp hx) rfl
    · exact ⟨x :: line, lines, rfl, .inr rfl, hlines⟩

/-- A word is no line of a text in which no line starts like it. -/
theorem not_mem_splitOn {mark : Char} (h : Unmarked mark ('\n' :: w)) :
    mark :: word ∉ w.splitOn '\n' := by
  obtain ⟨line, lines, hsplit, -, hlines⟩ := splitOn_of_unmarked h
  rw [List.splitOn_cons_eq_if_modifyHead, if_pos (beq_self_eq_true '\n')] at hsplit
  intro hmem
  rw [(List.cons.inj hsplit).2] at hmem
  exact hlines _ hmem rfl

/-- The command that writes a document to the path of the configuration. -/
def write : String := s!"cat <<'EOF' > {configPath}"

/-- What is written is the document, with its last line completed, unless a line of it is `EOF`. -/
theorem read?_hereDocument {document : String} (h : "EOF".toList ∉ document.toList.splitOn '\n')
    (rest : String) :
    read? (hereDocument document ++ rest) =
      some ⟨write, if document.endsWith "\n" then document else document ++ "\n", rest⟩ := by
  obtain ⟨w, hw, hlines⟩ : ∃ w,
      (if document.endsWith "\n" then document else document ++ "\n").toList = w ++ ['\n'] ∧
      "EOF".toList ∉ w.splitOn '\n' := by
    split
    · next hends =>
      obtain ⟨w, hw⟩ : ['\n'] <:+ document.toList := by
        simpa using String.Slice.endsWith_string_iff.mp hends
      rw [← hw, List.splitOn_append_cons_self] at h
      exact ⟨w, hw.symm, fun hmem => h (List.mem_append_left _ hmem)⟩
    · exact ⟨document.toList, String.toList_append, h⟩
  have hscript : (hereDocument document ++ rest).toList =
      write.toList ++ '\n' :: (w ++ '\n' :: ("EOF".toList ++ '\n' :: rest.toList)) := by
    unfold hereDocument write
    simp only [toString, String.toList_append, hw]
    simp
  have hread := read?_script (show '\n' ∉ write.toList by decide)
    (show delimiter? write.toList = some "EOF".toList by decide) (by decide) hlines rest.toList
  rwa [← hscript, ← hw, String.ofList_toList, String.ofList_toList, String.ofList_toList,
    String.ofList_toList] at hread

end HereDocument
end Carrier

/-! ## The layout of a configuration -/

theorem MatchType.terse_text (t : MatchType) : Terse (.str t.text) := .str _ (by cases t <;> decide)

theorem HeaderMatch.terse_toJson (m : HeaderMatch) : Terse m.toJson :=
  .obj _ fun _ he => Option.some.inj he ▸ m.kind.terse_text

theorem PathMatch.terse_toJson (m : PathMatch) : Terse m.toJson :=
  .obj _ fun _ he => Option.some.inj he ▸ m.kind.terse_text

theorem MatchClause.terse_toJson (m : MatchClause) : Terse m.toJson := by
  refine terse_obj fun e he => ?_
  obtain ⟨⟨k, v⟩, hmem, hv⟩ := List.mem_filterMap.mp he
  obtain ⟨j, hj, rfl⟩ := Option.map_eq_some_iff.mp hv
  simp only [List.mem_cons, List.not_mem_nil, Prod.mk.injEq, or_false] at hmem hj
  obtain ⟨-, rfl⟩ | ⟨-, rfl⟩ := hmem
  · obtain ⟨h, -, rfl⟩ := Option.map_eq_some_iff.mp hj
    exact h.terse_toJson
  · obtain ⟨p, -, rfl⟩ := Option.map_eq_some_iff.mp hj
    exact p.terse_toJson

theorem RouteRule.terse_toJson (r : RouteRule) : Terse r.toJson := by
  refine terse_obj fun e he => ?_
  obtain rfl := List.mem_singleton.mp he
  refine terse_arr fun j hj => ?_
  obtain ⟨m, -, rfl⟩ := List.mem_map.mp hj
  exact m.terse_toJson

namespace Carrier

/-- The endpoint may be any text, but it is not what comes last. -/
theorem Route.terse_toJson (r : Route) : Terse r.toJson := by
  refine .obj _ fun e he => ?_
  obtain rfl := Option.some.inj he
  refine terse_arr fun j hj => ?_
  obtain ⟨rule, -, rfl⟩ := List.mem_map.mp hj
  exact rule.terse_toJson

theorem Proxy.terse_toJson (p : Proxy) : Terse p.toJson := by
  refine terse_objOf rfl (terse_obj fun e he => ?_)
  obtain ⟨e', -, rfl⟩ := List.mem_map.mp he
  exact e'.2.terse_toJson

namespace Config

theorem terse_toJson (c : Config) : Terse c.toJson := by
  refine terse_objOf rfl (terse_arr fun j hj => ?_)
  obtain ⟨p, -, rfl⟩ := List.mem_map.mp hj
  exact p.terse_toJson

/-- No line of the document of a configuration starts with an `E`. -/
theorem unmarked_toYaml (c : Config) : Unmarked 'E' ('\n' :: c.toYaml.toList) := by
  refine unmarked_render rfl (c.plain_toJson 0) (fun e he => ?_) (by simp)
  obtain ⟨⟨k, v⟩, hmem, hv⟩ := List.mem_filterMap.mp he
  obtain ⟨j, -, rfl⟩ := Option.map_eq_some_iff.mp hv
  have hkeys : ∀ k ∈ ["version", "threads", "error_log", "pid_file", "upgrade_sock",
      "upstream_keepalive_pool_size", "probes", "proxy"], k.toList.head? ≠ some 'E' := by decide
  exact hkeys k (List.mem_map_of_mem (f := Prod.fst) hmem)

theorem endsWith_toYaml (c : Config) : c.toYaml.endsWith "\n" = true := by
  have hends : ['\n'] <:+ c.toYaml.toList := by
    rw [toYaml, render, String.toList_ofList]
    exact (ends_block c.terse_toJson 0).1
  exact String.Slice.endsWith_string_iff.mpr (by simpa using hends)

/-- Whatever stands in a configuration, its document is what is written, and the rest of the script
is the same for all of them. -/
theorem scripts_write_document (c : Config) (logLevel : String) :
    HereDocument.read? (applyScript c.toYaml logLevel) =
        some ⟨HereDocument.write, c.toYaml, reloadScript logLevel ++ ("\ncat " ++ logPath)⟩ ∧
      HereDocument.read? (entrypointScript c.toYaml logLevel) =
        some ⟨HereDocument.write, c.toYaml,
          s!"RUST_LOG={logLevel} exec carrier2 -c {configPath}"⟩ := by
  have hlines : "EOF".toList ∉ c.toYaml.toList.splitOn '\n' :=
    HereDocument.not_mem_splitOn c.unmarked_toYaml
  have hread := fun rest => HereDocument.read?_hereDocument hlines rest
  simp only [c.endsWith_toYaml, if_true] at hread
  refine ⟨?_, ?_⟩
  · rw [← hread]
    simp [applyScript, toString, String.append_assoc]
  · rw [← hread]
    simp [entrypointScript, toString, String.append_assoc]

end Config
end Carrier
end BridgeOperator
