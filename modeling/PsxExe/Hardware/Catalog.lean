import PsxExe.Hardware.Block

/-!
# The console's register blocks

The memory-mapped registers of the PlayStation, block by block: memory control, ports, interrupts, DMA
channels, timers, CD-ROM, graphics, motion decoder and sound.
-/

namespace PsxExe.Hardware

def single (name : String) (address width : Int) : Bank := ⟨name, address, width, 1, 0⟩

/-- Registers of 32 bits that follow each other. -/
def dwords (base : Int) : List String → List Bank
  | [] => []
  | name :: rest => single name base 32 :: dwords (base + 4) rest

def dmaChannel (name : String) (address : Int) : Block :=
  ⟨name, ⟨address, 0x0C⟩, dwords address [name ++ "_MADR", name ++ "_BCR", name ++ "_CHCR"]⟩

def timer (name : String) (address : Int) : Block :=
  ⟨name, ⟨address, 0x10⟩, dwords address [name ++ "_VAL", name ++ "_MODE", name ++ "_MAX"]⟩

def voiceCount : Int := 24

def voiceBase : Int := 0x1F801C00

def voiceStride : Int := 0x10

def voice (offset : Int) (field : String) (width : Int) : Bank :=
  ⟨"VOICE_\x7b:02x\x7d_" ++ field, voiceBase + offset, width, voiceCount, voiceStride⟩

/-- All blocks, in the order in which they are mapped. -/
def catalog : List Block := [
  ⟨"MCTRL1", ⟨0x1F801000, 0x24⟩, dwords 0x1F801000
    ["EXP1_BASE_ADDR", "EXP2_BASE_ADDR", "EXP1_DELAY_SIZE", "EXP3_DELAY_SIZE", "BIOS_ROM",
      "SPU_DELAY", "CDROM_DELAY", "EXP2_DELAY_SIZE", "COMMON_DELAY"]⟩,
  ⟨"MCTRL2", ⟨0x1F801060, 0x04⟩, dwords 0x1F801060 ["RAM_SIZE"]⟩,
  ⟨"IO_PORTS", ⟨0x1F801040, 0x20⟩, [
    single "JOY_MCD_DATA" 0x1F801040 32,
    single "JOY_MCD_STAT" 0x1F801044 32,
    single "JOY_MCD_MODE" 0x1F801048 16,
    single "JOY_MCD_CTRL" 0x1F80104A 16,
    single "JOY_MCD_BAUD" 0x1F80104E 16,
    single "SIO_DATA" 0x1F801050 32,
    single "SIO_STAT" 0x1F801054 32,
    single "SIO_MODE" 0x1F801058 16,
    single "SIO_CTRL" 0x1F80105A 16,
    single "SIO_MISC" 0x1F80105C 16,
    single "SIO_BAUD" 0x1F80105E 16]⟩,
  ⟨"INT_CTRL", ⟨0x1F801070, 0x06⟩, [
    single "I_STAT" 0x1F801070 16,
    single "I_MASK" 0x1F801074 16]⟩,
  dmaChannel "DMA_MDEC_IN" 0x1F801080,
  dmaChannel "DMA_MDEC_OUT" 0x1F801090,
  dmaChannel "DMA_GPU" 0x1F8010A0,
  dmaChannel "DMA_CDROM" 0x1F8010B0,
  dmaChannel "DMA_SPU" 0x1F8010C0,
  dmaChannel "DMA_PIO" 0x1F8010D0,
  dmaChannel "DMA_OTC" 0x1F8010E0,
  ⟨"DMA_CTRL_INT", ⟨0x1F8010F0, 0x08⟩, dwords 0x1F8010F0 ["DMA_DPCR", "DMA_DICR"]⟩,
  timer "TMR_DOTCLOCK" 0x1F801100,
  timer "TMR_HRETRACE" 0x1F801110,
  timer "TMR_SYSCLOCK" 0x1F801120,
  ⟨"CDROM_REGS", ⟨0x1F801800, 0x04⟩, [
    single "CDROM_REG0" 0x1F801800 8,
    single "CDROM_REG1" 0x1F801801 8,
    single "CDROM_REG2" 0x1F801802 8,
    single "CDROM_REG3" 0x1F801803 8]⟩,
  ⟨"GPU_REGS", ⟨0x1F801810, 0x08⟩, dwords 0x1F801810 ["GPU_REG0", "GPU_REG1"]⟩,
  ⟨"MDEC_REGS", ⟨0x1F801820, 0x08⟩, dwords 0x1F801820 ["MDEC_REG0", "MDEC_REG1"]⟩,
  ⟨"SPU_VOICES", ⟨voiceBase, voiceStride * voiceCount⟩, [
    voice 0x00 "LEFT_RIGHT" 32,
    voice 0x04 "ADPCM_SAMPLE_RATE" 16,
    voice 0x06 "ADPCM_START_ADDR" 16,
    voice 0x08 "ADSR_ATT_DEC_SUS_REL" 16,
    voice 0x0C "ADSR_CURR_VOLUME" 16,
    voice 0x0E "ADPCM_REPEAT_ADDR" 16]⟩,
  ⟨"SPU_CTRL_REGS", ⟨0x1F801D80, 0x40⟩, [
    single "SPU_MAIN_VOL_L" 0x1F801D80 16,
    single "SPU_MAIN_VOL_R" 0x1F801D82 16,
    single "SPU_REVERB_OUT_L" 0x1F801D84 16,
    single "SPU_REVERB_OUT_R" 0x1F801D86 16,
    single "SPU_VOICE_KEY_ON" 0x1F801D88 32,
    single "SPU_VOICE_KEY_OFF" 0x1F801D8C 32,
    single "SPU_VOICE_CHN_FM_MODE" 0x1F801D90 32,
    single "SPU_VOICE_CHN_NOISE_MODE" 0x1F801D94 32,
    single "SPU_VOICE_CHN_REVERB_MODE" 0x1F801D98 32,
    single "SPU_VOICE_CHN_ON_OFF_STATUS" 0x1F801D9C 32,
    single "SPU_UNKN_1DA0" 0x1F801DA0 16,
    single "SOUND_RAM_REVERB_WORK_ADDR" 0x1F801DA2 16,
    single "SOUND_RAM_IRQ_ADDR" 0x1F801DA4 16,
    single "SOUND_RAM_DATA_TRANSFER_ADDR" 0x1F801DA6 16,
    single "SOUND_RAM_DATA_TRANSFER_FIFO" 0x1F801DA8 16,
    single "SPU_CTRL_REG_CPUCNT" 0x1F801DAA 16,
    single "SOUND_RAM_DATA_TRANSFER_CTRL" 0x1F801DAC 16,
    single "SPU_STATUS_REG_SPUSTAT" 0x1F801DAE 16,
    single "CD_VOL_L" 0x1F801DB0 16,
    single "CD_VOL_R" 0x1F801DB2 16,
    single "EXT_VOL_L" 0x1F801DB4 16,
    single "EXT_VOL_R" 0x1F801DB6 16,
    single "CURR_MAIN_VOL_L" 0x1F801DB8 16,
    single "CURR_MAIN_VOL_R" 0x1F801DBA 16,
    single "SPU_UNKN_1DBC" 0x1F801DBC 32]⟩]

def findBlock (name : String) : Option Block := catalog.find? (·.name == name)

end PsxExe.Hardware
