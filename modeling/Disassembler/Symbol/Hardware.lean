import Disassembler.Symbol.Table

/-!
# Hardware

The registers of the Atari ST family and of the Falcon's signal processor interface,
and the variables of the operating system.
-/

namespace Disassembler

def hardwareSymbols : List Symbol :=
  [⟨"VID_MEMCONF", 0xff8001, 1, "memory configuration"⟩,
    ⟨"VID_DBASEHI", 0xff8201, 1, "video base high"⟩,
    ⟨"VID_DBASEMID", 0xff8203, 1, "video base mid"⟩,
    ⟨"VID_VCOUNTHI", 0xff8205, 1, "video counter high"⟩,
    ⟨"VID_VCOUNTMID", 0xff8207, 1, "video counter mid"⟩,
    ⟨"VID_VCOUNTLOW", 0xff8209, 1, "video counter low"⟩,
    ⟨"VID_SYNCMODE", 0xff820a, 1, "video sync mode"⟩,
    ⟨"VID_DBASELO_STE", 0xff820d, 1, "video base low (STE)"⟩,
    ⟨"VID_COLOR0", 0xff8240, 32, "palette"⟩,
    ⟨"VID_SHIFTMD", 0xff8260, 1, "shifter mode"⟩,
    ⟨"VID_HSCROLL", 0xff8265, 1, "horizontal scroll (STE)"⟩,
    ⟨"DMA_DISKCTL", 0xff8604, 2, "disk controller"⟩,
    ⟨"DMA_MODE", 0xff8606, 2, "DMA mode and status"⟩,
    ⟨"YM_GISELECT", 0xff8800, 1, "YM2149 register select"⟩,
    ⟨"YM_GIWRITE", 0xff8802, 1, "YM2149 register write"⟩,
    ⟨"DMASND_CTRL", 0xff8901, 1, "DMA sound control (STE)"⟩,
    ⟨"BLT_HALFTONE", 0xff8a00, 32, "blitter halftone (STE)"⟩,
    ⟨"MFP_GPIP", 0xfffa01, 1, "MFP general purpose I/O"⟩,
    ⟨"MFP_IERA", 0xfffa07, 1, "MFP interrupt enable A"⟩,
    ⟨"MFP_IERB", 0xfffa09, 1, "MFP interrupt enable B"⟩,
    ⟨"MFP_IPRA", 0xfffa0b, 1, "MFP interrupt pending A"⟩,
    ⟨"MFP_IPRB", 0xfffa0d, 1, "MFP interrupt pending B"⟩,
    ⟨"MFP_ISRA", 0xfffa0f, 1, "MFP interrupt in service A"⟩,
    ⟨"MFP_ISRB", 0xfffa11, 1, "MFP interrupt in service B"⟩,
    ⟨"MFP_IMRA", 0xfffa13, 1, "MFP interrupt mask A"⟩,
    ⟨"MFP_IMRB", 0xfffa15, 1, "MFP interrupt mask B"⟩,
    ⟨"MFP_VR", 0xfffa17, 1, "MFP vector register"⟩,
    ⟨"MFP_TACR", 0xfffa19, 1, "MFP timer A control"⟩,
    ⟨"MFP_TBCR", 0xfffa1b, 1, "MFP timer B control"⟩,
    ⟨"MFP_TADR", 0xfffa1f, 1, "MFP timer A data"⟩,
    ⟨"MFP_TBDR", 0xfffa21, 1, "MFP timer B data"⟩,
    ⟨"ACIA_KEYCTL", 0xfffc00, 1, "keyboard ACIA control"⟩,
    ⟨"ACIA_KEYBD", 0xfffc02, 1, "keyboard ACIA data"⟩,
    ⟨"DSP_INT_CTRL", 0xffa200, 1, "DSP interrupt control (Falcon)"⟩,
    ⟨"DSP_CMD_VEC", 0xffa201, 1, "DSP command vector (Falcon)"⟩,
    ⟨"DSP_INT_STATUS", 0xffa202, 1, "DSP interrupt status (Falcon)"⟩,
    ⟨"DSP_INT_VEC", 0xffa203, 1, "DSP interrupt vector (Falcon)"⟩,
    ⟨"DSP_DATA", 0xffa204, 4, "DSP data (Falcon)"⟩,
    ⟨"etv_timer", 0x400, 4, "timer interrupt vector"⟩,
    ⟨"memvalid", 0x420, 4, "memory configuration valid"⟩,
    ⟨"phystop", 0x42e, 4, "top of physical memory"⟩,
    ⟨"_v_bas_ad", 0x44e, 4, "screen memory base"⟩,
    ⟨"_vblqueue", 0x456, 4, "deferred vertical blank vectors"⟩,
    ⟨"_frclock", 0x466, 4, "vertical blank count"⟩,
    ⟨"_hz_200", 0x4ba, 4, "200hz system timer"⟩,
    ⟨"_sysbase", 0x4f2, 4, "base of OS"⟩]

namespace SymbolTable

/-- The table with the names of the hardware.  Symbols that are there already
are kept. -/
def addHardware (t : SymbolTable) : SymbolTable :=
  hardwareSymbols.foldl add t

end SymbolTable

end Disassembler
