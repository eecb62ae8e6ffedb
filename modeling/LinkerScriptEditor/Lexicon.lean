/-!
# Reserved words of linker scripts
-/

namespace LinkerScriptEditor.Lexicon

/-- Commands and attributes, by the part of a script in which they occur: simple commands, symbol
assignment, sections, memory, program headers, versions. -/
def keywords : List String :=
  ["ENTRY", "INCLUDE", "INPUT", "GROUP", "AS_NEEDED", "OUTPUT", "SEARCH_DIR", "STARTUP",
   "OUTPUT_FORMAT", "TARGET", "REGION_ALIAS", "ASSERT", "EXTERN", "FORCE_COMMON_ALLOCATION",
   "INHIBIT_COMMON_ALLOCATION", "FORCE_GROUP_ALLOCATION", "INSERT", "AFTER", "BEFORE",
   "NOCROSSREFS", "NOCROSSREFS_TO", "OUTPUT_ARCH", "LD_FEATURE", "HIDDEN", "PROVIDE",
   "PROVIDE_HIDDEN", "SECTIONS", "SORT", "SORT_NONE", "SORT_BY_NAME", "SORT_BY_ALIGNMENT",
   "SORT_BY_INIT_PRIORITY", "REVERSE", "KEEP", "INPUT_SECTION_FLAGS", "BYTE", "SHORT", "LONG",
   "QUAD", "SQUAD", "FILL", "CREATE_OBJECT_SYMBOLS", "CONSTRUCTORS", "NOLOAD", "READONLY",
   "DSECT", "COPY", "INFO", "OVERLAY", "AT", "ALIGN_WITH_INPUT", "SUBALIGN", "ONLY_IF_RO",
   "ONLY_IF_RW", "SPECIAL", "COMMON", "MEMORY", "PHDRS", "FILEHDR", "FLAGS", "PT_NULL",
   "PT_LOAD", "PT_DYNAMIC", "PT_INTERP", "PT_NOTE", "PT_SHLIB", "PT_PHDR", "PT_TLS",
   "PT_GNU_EH_FRAME", "PT_GNU_STACK", "PT_GNU_RELRO", "VERSION", "global", "local"]

/-- Functions of expressions. -/
def builtins : List String :=
  ["ABSOLUTE", "ADDR", "ALIGN", "ALIGNOF", "BLOCK", "DATA_SEGMENT_ALIGN", "DATA_SEGMENT_END",
   "DATA_SEGMENT_RELRO_END", "DEFINED", "LENGTH", "LOADADDR", "LOG2CEIL", "MAX", "MIN", "NEXT",
   "ORIGIN", "SEGMENT_START", "SIZEOF", "SIZEOF_HEADERS", "sizeof_headers"]

/-- What a reader of a script should notice. -/
def warnings : List String := ["/DISCARD/", "EXCLUDE_FILE", ":NONE"]

end LinkerScriptEditor.Lexicon
